import CqlClient.Proofs.Session.Client.Asking

/-!
# Turns of a client that opens a session

What each turn makes of each phase of an opening, and what it costs.

* `Linked.closing`, `Linked.opened`, `Exchanging.asking`: how the phases begin that follow the
  exchange;
* `Asking.operationTurn`, `Exchanging.operationTurn`, `Closing.operationTurn`: the three phases in
  which the operation goes on;
* `Phase.readerTurn`, `Phase.writerTurn`, `Phase.operationTurn`: every turn ends in a phase.
-/

namespace CqlClient

namespace Client

variable {config : SessionConfig} {id : OperationId} {came : Bytes} {awake awake' : Task → Prop}
  {c c' : Client} {n n' : Connection} {link : Link} {name : String} {frame : Bytes}

/-! ## Ends of the wait -/

/-- Only a side that takes nothing does not see that the stream of bytes is closed. -/
theorem hungUp_hangUp (c : Client) : c.hangUp.hungUp = true ∨ c.deaf = true := by
  show (c.hungUp || !c.deaf) = true ∨ c.deaf = true
  cases c.deaf <;> simp

/-- A session that cannot use its keyspace begins to close its connection. -/
theorem Linked.closing {stage : Stage} {fault : KeyspaceFault} (h : Linked config came c n link)
    (hoperations : c.operations = [(id, stage)]) (hisOpen : c.isOpen = false)
    (hfinished : c.finished = []) (hreleased : n.released = false)
    (hwriter : n.writing = true ∨ c.deaf = true) (name : String)
    (hfails : UseFails config n.extensions link.after c.ended c.deaf fault) :
    ∃ c' n' tasks ready, c.endKeyspace id (.first name) (.error fault) = c' ∧
      Closing config id came (· ∈ c'.ready) c' n' link fault ∧
      (∀ task ∈ tasks, task ∈ [.reader, .writer, .operation id]) ∧ Woken tasks c.ready ready ∧
      c'.ready = .operation id :: ready := by
  obtain ⟨ready, hend, hwoken⟩ := endKeyspace_error h.connection id name fault
  have htasks : ∀ task ∈ c.waitingOnPool n.pool ++ [.writer],
      task ∈ [.reader, .writer, .operation id] := by
    intro task hmem
    rcases List.mem_append.mp hmem with hmem | hmem
    · simp [eq_of_mem_waitingOnPool hoperations hmem]
    · simp [List.mem_singleton.mp hmem]
  have hawake : .writer ∈ Task.operation id :: ready :=
    List.mem_cons_of_mem _ (hwoken.mem_iff.mpr (.inr (List.mem_append_right _ (.head _))))
  refine ⟨_, { n with pool := n.pool.close .closed, stopping := true }, _, ready, hend, ?_, htasks,
    hwoken, rfl⟩
  exact
    { linked := h.keep h.read rfl rfl rfl (.inl rfl) rfl rfl rfl
      fails := hfails
      operations := by
        show setEntry c.operations id _ = _
        rw [hoperations, setEntry_own]
      isOpen := hisOpen
      finished := hfinished
      closed := StreamPool.closed_close ..
      stopping := rfl
      released := hreleased
      writer := by
        rcases Bool.eq_false_or_eq_true n.writing with hwriting | hwriting
        · exact .inl ⟨hwriting, hawake⟩
        · exact .inr ⟨hwriting, .head _, .inr (hwriter.resolve_left (by simp [hwriting]))⟩ }

/-- A session that can use its keyspace, or needs none, is open. -/
theorem Linked.opened {stage : Stage} (h : Linked config came c n link)
    (hoperations : c.operations = [(id, stage)]) (hfinished : c.finished = [])
    (hstopping : n.stopping = false) (hreleased : n.released = false)
    (hdone : UseDone config n.extensions link.after) :
    Opened config id came
      { c with
        operations := removeEntry c.operations id
        finished := (id, .opened n.sharding n.extensions c.config.queryOptions) :: c.finished
        isOpen := true }
      n link where
  linked := h.keep h.read rfl h.connection rfl (.inl rfl) rfl rfl rfl
  done := hdone
  operations := by
    show removeEntry c.operations id = _
    rw [hoperations, removeEntry_own]
  isOpen := rfl
  finished := by
    show (id, _) :: c.finished = _
    rw [hfinished, h.setup]
  stopping := hstopping
  released := hreleased

/-- The operation has gone on to close the connection. -/
theorem Closing.advances {fault : KeyspaceFault}
    (h : Closing config id came (· ∈ c'.ready) c' n link fault) (hahead : 16 ≤ c.ahead)
    (hreleased : c.isReleased = false)
    (hwakes : ∃ tasks ready, (∀ task ∈ tasks, task ∈ [.reader, .writer, .operation id]) ∧
      Woken tasks c.ready ready ∧ (c'.ready = ready ∨ c'.ready = .operation id :: ready)) :
    Advances id c c' ∧ Phase config id came (· ∈ c'.ready) c' := by
  refine ⟨⟨hwakes, Nat.le_trans h.spent hahead, ?_⟩, .closing h⟩
  rw [hreleased, h.linked.isReleased_eq, h.released]

/-- The operation has opened the session. -/
theorem Opened.advances (h : Opened config id came c' n link) (hahead : 8 ≤ c.ahead)
    (hreleased : c.isReleased = false)
    (hwakes : ∃ tasks ready, (∀ task ∈ tasks, task ∈ [.reader, .writer, .operation id]) ∧
      Woken tasks c.ready ready ∧ (c'.ready = ready ∨ c'.ready = .operation id :: ready)) :
    Advances id c c' ∧ Phase config id came (· ∈ c'.ready) c' := by
  refine ⟨⟨hwakes, Nat.le_trans (spent_of_operations h.operations) hahead, ?_⟩, .opened h⟩
  rw [hreleased, h.linked.isReleased_eq, h.released]

/-- The turn of an operation that waits for its answer. -/
theorem Asking.operationTurn
    (h : Asking config id came (fun t => t ∈ c.ready ∨ t = .operation id) c n link name frame) :
    (c.operationTurn id = c ∧ Asking config id came (· ∈ c.ready) c n link name frame) ∨
    (Advances id c (c.operationTurn id) ∧
      Phase config id came (· ∈ (c.operationTurn id).ready) (c.operationTurn id)) := by
  rcases h.answer with ⟨hwaiting, hclosed, hnone⟩ | ⟨result, hcompleted, hanswering, -⟩
  · refine .inl ⟨?_, { h with
      answer := .inl ⟨hwaiting, hclosed, hnone⟩
      reader := by simpa using h.reader
      writer := by simpa using h.writer }⟩
    have hresponse : n.pool.response 0 = (none, n.pool) := by
      rw [StreamPool.response, hwaiting]
    rw [Client.operationTurn, h.operations, List.lookup_cons_self]
    simp only [h.linked.connection, hresponse]
  · obtain rfl := h.linked.setup
    obtain ⟨pool, keyspace, hturn⟩ := operationTurn_answered h.linked.connection h.operations
      hcompleted
    let c₁ := { c with connection := some { n with pool }, keyspace }
    have hlinked : Linked c.config came c₁ { n with pool } link :=
      h.linked.keep h.linked.read rfl rfl rfl (.inl rfl) rfl rfl rfl
    have hahead : c.ahead = 16 := h.ahead_eq
    have hreleased : c.isReleased = false := h.linked.isReleased_eq.trans h.released
    refine .inr ?_
    rw [hturn]
    cases hresult : c.config.useResult n.extensions name result with
    | error fault =>
      have hwriter : n.writing = true ∨ c.deaf = true :=
        h.writer.imp (fun h => h.1) fun h => h.2.2
      obtain ⟨c', n', tasks, ready, hend, hclosing, htasks, hwoken, hready⟩ :=
        hlinked.closing h.operations h.isOpen h.finished h.released hwriter name
          (.answered h.use h.linked.read hanswering (useRefused_of_useResult hresult)
            (KeyspaceFault.ofUse_keyspaceFault name fault))
      simp only [Except.mapError, Except.map]
      rw [hend]
      exact hclosing.advances (Nat.le_of_eq hahead.symm) hreleased
        ⟨tasks, ready, htasks, hwoken, .inr hready⟩
    | ok set =>
      have hopened := hlinked.opened h.operations h.finished h.stopping h.released
        (useDone_of_answering h.use h.linked.read hanswering hresult)
      simp only [Except.mapError, Except.map]
      rw [endKeyspace_ok hlinked.connection name]
      exact hopened.advances (by omega) hreleased
        ⟨[], c.ready, List.forall_mem_nil _, .refl, .inl rfl⟩

/-! ## The exchange -/

namespace Exchanging

variable {h₀ : Handshake} {s : Supported} {rest : Bytes}

/-- The exchange has failed. -/
theorem refused (h : Exchanging config id came awake c h₀) {fault : OpeningFault}
    (hended : Handshake.Ended config.connection came c.ended c.deaf c.sent fault)
    (received : Bytes) : Refused config id came ({ c with received }.notOpened id fault) where
  setup := h.setup
  operations := by
    show removeEntry c.operations id = _
    rw [h.operations, removeEntry_own]
  connection := h.connection
  isOpen := h.isOpen
  outcome := by
    refine ⟨fault, ?_, hended⟩
    show (id, _) :: c.finished = _
    rw [h.finished]
  hungUp := c.hungUp_hangUp

/-- The exchange has ended well, and the program gives up. -/
theorem panicked (h : Exchanging config id came awake c (.starting s))
    (hready : Handshake.IsReady c.received rest) {cause : Panic}
    (hunfit : config.connection.Unfit cause) :
    Panicked config id came ({ c with received := rest }.hangUp.finish id (.panicked cause)) where
  setup := h.setup
  operations := by
    show removeEntry c.operations id = _
    rw [h.operations, removeEntry_own]
  connection := h.connection
  isOpen := h.isOpen
  exchange := ⟨s, c.received, h.reached, hready⟩
  outcome := by
    refine ⟨cause, ?_, hunfit⟩
    show (id, _) :: c.finished = _
    rw [h.finished]
  hungUp := c.hungUp_hangUp

/-- Nothing was asked on a connection that has just begun, or the keyspace was. -/
theorem linked (h : Exchanging config id came awake c (.starting s))
    (hready : Handshake.IsReady c.received rest) (hfits : config.connection.Fits)
    (hsetup : c'.config = config)
    (hconnection : c'.connection = some n') (hsent : c'.sent = c.sent)
    (hreceived : c'.received = rest)
    (hqueue : n'.queue = [] ∨ ∃ frame, n'.queue = [frame] ∧ IsUse config frame)
    (hsenders : n'.senders = []) (hextensions : n'.extensions = .ofSupported s)
    (hsharding : n'.sharding = Sharding.ofSupported? s) :
    Linked config came c' n' ⟨s, rest, [], []⟩ where
  setup := hsetup
  connection := hconnection
  exchange := ⟨c.sent, hsent, c.received, h.reached, hready⟩
  fits := hfits
  read := by
    rw [hreceived]
    exact .nil rest
  requests := by
    rcases hqueue with hqueue | ⟨frame, hqueue, -⟩ <;> simp [hqueue]
  uses := by
    rcases hqueue with hqueue | ⟨frame, hqueue, huse⟩
    · simp [hqueue]
    · simpa [hqueue] using huse
  senders := hsenders
  extensions := Extensions.recognised_iff.mpr hextensions
  sharding := hsharding

/-- The first request of the connection waits for its answer. -/
theorem asking (h : Exchanging config id came awake c (.starting s))
    (hready : Handshake.IsReady c.received rest) (hfits : config.connection.Fits)
    {pool : StreamPool} {ready : List Task} (huse : FirstUse config name frame)
    (hslot : pool.slot 0 = .waiting) (hclosed : pool.closed = false) (hreader : .reader ∈ ready)
    (hwriter : .writer ∈ ready) :
    let n := { Connection.fresh config.connection s with pool, queue := [frame] }
    let stage : Stage := .waiting 0 (.keyspace (config.useSource name) (.first name))
    Asking config id came (· ∈ ready)
      { c with
        ready
        received := rest
        operations := setEntry c.operations id stage
        connection := some n }
      n ⟨s, rest, [], []⟩ name frame := by
  intro n stage
  exact
    { linked :=
        h.linked hready hfits h.setup rfl rfl rfl (.inr ⟨frame, rfl, name, huse⟩) rfl rfl rfl
      use := huse
      operations := by
        show setEntry c.operations id stage = _
        rw [h.operations, setEntry_own]
      isOpen := h.isOpen
      finished := h.finished
      stopping := rfl
      released := rfl
      reading := .inl rfl
      answer := .inl ⟨hslot, hclosed, List.forall_mem_nil _⟩
      reader := fun _ => .inl hreader
      writer := .inl ⟨rfl, rfl, .inr hwriter⟩ }

/-- The exchange has ended well: the connection begins, and the session with it unless it is to use
a keyspace. -/
theorem establish (h : Exchanging config id came awake c (.starting s))
    (hready : Handshake.IsReady c.received rest) (hfits : config.connection.Fits) :
    Advances id c (c.establish id s rest) ∧
      Phase config id came (· ∈ (c.establish id s rest).ready) (c.establish id s rest) := by
  obtain rfl := h.setup
  have hahead : c.ahead = 24 := ahead_of_operations h.operations
  have hreleased : c.isReleased = false := by
    rw [isReleased, h.connection]
    rfl
  obtain ⟨ready, hwoken, hestablish⟩ := c.establish_eq id s rest
  let n := Connection.fresh c.config.connection s
  let c₁ := { c with ready, received := rest, connection := some n }
  have hlinked : Linked c.config came c₁ n ⟨s, rest, [], []⟩ :=
    h.linked hready hfits rfl rfl rfl rfl (.inl rfl) rfl rfl rfl
  have htasks : ∀ task ∈ [Task.reader, .writer], task ∈ [.reader, .writer, .operation id] := by
    simp
  rw [hestablish]
  cases hkeyspace : c.config.keyspace with
  | none =>
    have hopened := hlinked.opened h.operations h.finished rfl rfl (.inl hkeyspace)
    have hfinish : c₁.finish id (.opened n.sharding n.extensions c.config.queryOptions) =
        { c₁ with
          operations := removeEntry c.operations id
          finished := (id, .opened n.sharding n.extensions c.config.queryOptions) :: c.finished
          isOpen := true } := rfl
    simp only
    rw [hfinish]
    exact hopened.advances (by omega) hreleased ⟨_, ready, htasks, hwoken, .inl rfl⟩
  | some name =>
    simp only
    rcases startKeyspace_cases (c := c₁) rfl hfits hkeyspace rfl id with
      ⟨pool, fault, hfails, hstart⟩ |
        ⟨frame, pool, ready', huse, hslot, hclosed, hwoken', hstart⟩
    · have hlinked' : Linked c.config came { c₁ with connection := some { n with pool } }
          { n with pool } ⟨s, rest, [], []⟩ :=
        hlinked.keep hlinked.read rfl rfl rfl (.inl rfl) rfl rfl rfl
      obtain ⟨c', n', tasks, ready', hend, hclosing, htasks', hwoken', hready'⟩ :=
        hlinked'.closing h.operations h.isOpen h.finished rfl (.inl rfl) name (hfails _ _ _ _)
      rw [hstart, hend]
      refine hclosing.advances (by omega) hreleased
        ⟨_, ready', fun task hmem => ?_, hwoken.trans hwoken', .inr hready'⟩
      exact (List.mem_append.mp hmem).elim (htasks task) (htasks' task)
    · rw [hstart]
      have hreader : .reader ∈ Task.operation id :: ready' :=
        List.mem_cons_of_mem _ (hwoken'.mem (hwoken.mem_iff.mpr (.inr (.head _))))
      have hwriter : .writer ∈ Task.operation id :: ready' :=
        List.mem_cons_of_mem _ (hwoken'.mem_iff.mpr (.inr (.head _)))
      have hasking := h.asking hready hfits huse hslot hclosed hreader hwriter
      refine ⟨⟨⟨_, ready', ?_, hwoken.trans hwoken', .inr rfl⟩, ?_, ?_⟩, .asking hasking⟩
      · intro task hmem
        rcases List.mem_append.mp hmem with hmem | hmem
        · exact htasks task hmem
        · simp [List.mem_singleton.mp hmem]
      · exact Nat.le_trans hasking.spent (by omega)
      · rw [hreleased]
        rfl

/-- The exchange ends, and the operation with it. -/
theorem advances (h : Exchanging config id came awake c h₀) (hready : c'.ready = c.ready)
    (hoperations : c'.operations = []) (hreleased : c'.isReleased = c.isReleased) :
    Advances id c c' where
  wakes := ⟨[], c.ready, List.forall_mem_nil _, .refl, .inl hready⟩
  ahead := Nat.le_trans (spent_of_operations hoperations) (Nat.le_trans (by decide) h.le_ahead)
  released := hreleased

theorem notOpened (h : Exchanging config id came awake c h₀) {fault : OpeningFault}
    (hended : Handshake.Ended config.connection came c.ended c.deaf c.sent fault)
    (received : Bytes) :
    let c' := { c with received }.notOpened id fault
    Advances id c c' ∧ Phase config id came (· ∈ c'.ready) c' := by
  have hrefused := h.refused hended received
  exact ⟨h.advances rfl hrefused.operations rfl, .refused hrefused⟩

/-- The second frame is sent, or the exchange fails over it. -/
theorem sendFirst (h : Exchanging config id came awake c .asked)
    (hstarts : Handshake.Starts config.connection c.received s frame rest) :
    let c' := { c with received := rest }.sendFirst id frame (.starting s)
    Advances id c c' ∧ Phase config id came (· ∈ c'.ready) c' := by
  simp only [Client.sendFirst]
  split
  next hdeaf => exact h.notOpened ⟨.asked, c.received, h.reached, .unsent hstarts hdeaf⟩ rest
  next =>
    let c₁ := { c with
      received := rest
      sent := frame :: c.sent
      operations := setEntry c.operations id (.opening (.starting s))
      ready := .operation id :: c.ready }
    have hoperations : c₁.operations = [(id, .opening (.starting s))] := by
      show setEntry c.operations id _ = _
      rw [h.operations, setEntry_own]
    have hexchanging : Exchanging config id came (· ∈ c₁.ready) c₁ (.starting s) :=
      ⟨h.setup, hoperations, h.connection, h.isOpen, h.finished, h.reached.start hstarts,
        .inl (.head _)⟩
    refine ⟨⟨⟨[], c.ready, List.forall_mem_nil _, .refl, .inr rfl⟩, ?_, rfl⟩,
      .exchanging hexchanging⟩
    have hbefore : c.ahead = 32 := ahead_of_operations h.operations
    have hleft : c₁.ahead = 24 := ahead_of_operations hoperations
    exact Nat.le_trans (Nat.le_of_eq (congrArg (· + 8) hleft)) (Nat.le_of_eq hbefore.symm)

/-- The turn of an operation that is in the exchange. -/
theorem operationTurn
    (h : Exchanging config id came (fun t => t ∈ c.ready ∨ t = .operation id) c h₀) :
    (c.operationTurn id = c ∧ Exchanging config id came (· ∈ c.ready) c h₀) ∨
    (Advances id c (c.operationTurn id) ∧
      Phase config id came (· ∈ (c.operationTurn id).ready) (c.operationTurn id)) := by
  have hturn : c.operationTurn id = c.openingTurn id h₀ := by
    rw [Client.operationTurn, h.operations, List.lookup_cons_self]
  obtain rfl := h.setup
  rw [hturn, openingTurn]
  rcases Handshake.step_cases c.config.connection h₀ c.received c.ended c.deaf with
    ⟨hstep, hended, hnext⟩ | ⟨s, frame, rest, rfl, hstarts, hstep⟩ |
      ⟨s, rest, rfl, hready, hstep⟩ | ⟨fault, hrefuses, hstep⟩
  · rw [hstep]
    exact .inl ⟨rfl, { h with waits := .inr ⟨hnext, hended⟩ }⟩
  · rw [hstep]
    exact .inr (h.sendFirst hstarts)
  · rw [hstep]
    refine .inr ?_
    simp only
    rcases c.config.connection.fits_or_unfit with ⟨hpanic, hfits⟩ | ⟨cause, hpanic, hunfit⟩
    · rw [hpanic]
      exact h.establish hready hfits
    · rw [hpanic]
      have hpanicked := h.panicked hready hunfit
      exact ⟨h.advances rfl hpanicked.operations rfl, .panicked hpanicked⟩
  · rw [hstep]
    exact .inr (h.notOpened ⟨h₀, c.received, h.reached, hrefuses⟩ c.received)

end Exchanging

/-! ## The other turns -/

theorem Passes.serves (h : Linked config came c n link) (hpasses : Passes link c n c') :
    Serves id c c' := by
  obtain ⟨ready, received, pool, reading, read, rfl, -, hwoken, -⟩ := hpasses
  refine ⟨⟨[], List.forall_mem_nil _, hwoken⟩, rfl, ?_⟩
  rw [h.isReleased_eq]
  rfl

namespace Closing

variable {fault : KeyspaceFault}

theorem readerTurn
    (h : Closing config id came (fun t => t ∈ c.ready ∨ t = .reader) c n link fault) :
    Serves id c c.readerTurn ∧ ∃ n' link',
      Closing config id came (· ∈ c.readerTurn.ready) c.readerTurn n' link' fault := by
  have hquiet (stream : Nat) : c.waitingOn stream = [] := by
    rw [waitingOn, h.operations]
    rfl
  have hpasses := h.linked.readerTurn hquiet
  refine ⟨hpasses.serves h.linked, ?_⟩
  obtain ⟨ready, received, pool, reading, read, hturn, hread, hwoken, hclosed, -⟩ := hpasses
  rw [hturn]
  refine ⟨{ n with pool, reading }, { link with read }, ?_⟩
  exact
    { linked := h.linked.keep hread rfl rfl rfl (.inl rfl) rfl rfl rfl
      fails := h.fails
      operations := h.operations
      isOpen := h.isOpen
      finished := h.finished
      closed := hclosed h.closed
      stopping := h.stopping
      released := h.released
      writer := by
        have hwriter := h.writer
        simp only [hwoken.mem_iff, List.not_mem_nil, or_false, reduceCtorEq] at hwriter ⊢
        exact hwriter }

theorem writerTurn
    (h : Closing config id came (fun t => t ∈ c.ready ∨ t = .writer) c n link fault) :
    Serves id c c.writerTurn ∧ ∃ n',
      Closing config id came (· ∈ c.writerTurn.ready) c.writerTurn n' link fault := by
  rcases writerTurn_cases h.linked.connection h.linked.senders with
    ⟨hturn, hidle⟩ | ⟨-, -, ready, hturn, hwoken⟩ | ⟨-, hstopping, -⟩ | ⟨-, hstopping, -⟩
  · rw [hturn]
    refine ⟨⟨.refl, rfl, rfl⟩, n, ?_⟩
    rcases h.writer with ⟨hwriting, -⟩ | hstopped
    · cases h.stopping.symm.trans (hidle hwriting).1
    · exact { h with writer := .inr (by simpa using hstopped) }
  · rw [waitingToClose_eq h.operations rfl] at hwoken
    rw [hturn]
    have hreleased : c.isReleased = n.released := h.linked.isReleased_eq
    refine ⟨⟨⟨_, fun task => List.mem_singleton.mp, hwoken⟩, rfl, hreleased.symm⟩,
      { n with writing := false, queue := [] }, ?_⟩
    exact
      { linked := h.linked.keep h.linked.read rfl rfl rfl (.inr rfl) rfl rfl rfl
        fails := h.fails
        operations := h.operations
        isOpen := h.isOpen
        finished := h.finished
        closed := h.closed
        stopping := h.stopping
        released := h.released
        writer := .inr ⟨rfl, hwoken.mem_iff.mpr (.inr (.head _)), c.hungUp_hangUp⟩ }
  · cases h.stopping.symm.trans hstopping
  · cases h.stopping.symm.trans hstopping

theorem operationTurn
    (h : Closing config id came (fun t => t ∈ c.ready ∨ t = .operation id) c n link fault) :
    (c.operationTurn id = c ∧ Closing config id came (· ∈ c.ready) c n link fault) ∨
    (Advances id c (c.operationTurn id) ∧
      ∃ n', NotOpened config id came (c.operationTurn id) n' link) := by
  have hturn : c.operationTurn id = if n.writing then c else
      (c.modifyConnection fun n => { n with reading := false }).finish id
        (.notOpened (.keyspace fault)) := by
    rw [Client.operationTurn, h.operations, List.lookup_cons_self]
    simp only [h.linked.connection, Option.map_some, Option.getD_some]
  rcases h.writer with ⟨hwriting, hawake⟩ | ⟨hwriting, -, hhungUp⟩
  · refine .inl ⟨hturn.trans (if_pos hwriting), { h with writer := .inl ⟨hwriting, ?_⟩ }⟩
    simpa using hawake
  · have hnot : ¬ n.writing = true := by simp [hwriting]
    have hfinish : c.operationTurn id =
        { c with
          connection := some { n with reading := false }
          operations := removeEntry c.operations id
          finished := (id, .notOpened (.keyspace fault)) :: c.finished } := by
      rw [hturn, if_neg hnot, modifyConnection, h.linked.connection]
      rfl
    have hoperations : removeEntry c.operations id = [] := by
      rw [h.operations, removeEntry_own]
    have hreleased : c.isReleased = n.released := h.linked.isReleased_eq
    rw [hfinish]
    refine .inr ⟨⟨⟨[], c.ready, List.forall_mem_nil _, .refl, .inl rfl⟩, ?_, hreleased.symm⟩,
      { n with reading := false }, ?_⟩
    · exact Nat.le_trans (spent_of_operations hoperations) (Nat.le_of_eq h.ahead_eq.symm)
    · exact
        { linked := h.linked.keep h.linked.read rfl rfl rfl (.inl rfl) rfl rfl rfl
          outcome := ⟨fault, by rw [h.finished], h.fails⟩
          operations := hoperations
          isOpen := h.isOpen
          closed := h.closed
          writing := hwriting
          reading := rfl
          hungUp := hhungUp }

end Closing

/-- A session that is closed does nothing any more. -/
theorem NotOpened.writerTurn (h : NotOpened config id came c n link) : c.writerTurn = c := by
  rw [Client.writerTurn, h.linked.connection]
  exact if_pos (by simp [h.writing])

theorem NotOpened.readerTurn (h : NotOpened config id came c n link) : c.readerTurn = c := by
  rw [Client.readerTurn, h.linked.connection]
  exact if_neg (by simp [h.reading])

namespace Opened

theorem waitingOn_eq (h : Opened config id came c n link) (stream : Nat) :
    c.waitingOn stream = [] := by
  rw [waitingOn, h.operations]
  rfl

theorem readerTurn (h : Opened config id came c n link) :
    Serves id c c.readerTurn ∧ ∃ n' link', Opened config id came c.readerTurn n' link' := by
  have hpasses := h.linked.readerTurn h.waitingOn_eq
  refine ⟨hpasses.serves h.linked, ?_⟩
  obtain ⟨ready, received, pool, reading, read, hturn, hread, -⟩ := hpasses
  rw [hturn]
  refine ⟨{ n with pool, reading }, { link with read }, ?_⟩
  exact
    { linked := h.linked.keep hread rfl rfl rfl (.inl rfl) rfl rfl rfl
      done := h.done
      operations := h.operations
      isOpen := h.isOpen
      finished := h.finished
      stopping := h.stopping
      released := h.released }

theorem writerTurn (h : Opened config id came c n link) :
    Serves id c c.writerTurn ∧ ∃ n' link', Opened config id came c.writerTurn n' link' := by
  have hreleased : c.isReleased = n.released := h.linked.isReleased_eq
  have hnobody : c.waitingOnPool n.pool ++ c.waitingToClose = [] := by
    rw [waitingOnPool_eq_nil h.waitingOn_eq, waitingToClose, h.operations]
    rfl
  rcases writerTurn_cases h.linked.connection h.linked.senders with
    ⟨hturn, -⟩ | ⟨-, hstops | hstops, -⟩ | ⟨-, -, -, -, ready, hturn, hwoken⟩ | ⟨-, -, hturn⟩
  · rw [hturn]
    exact ⟨⟨.refl, rfl, rfl⟩, n, link, h⟩
  · cases h.stopping.symm.trans hstops
  · cases h.released.symm.trans hstops.1
  · rw [hnobody] at hwoken
    rw [hturn]
    refine ⟨⟨⟨[], List.forall_mem_nil _, hwoken⟩, rfl, hreleased.symm⟩,
      { n with pool := n.pool.close (.transport .notReceived), writing := false, queue := [] },
      link, ?_⟩
    exact
      { linked := h.linked.keep h.linked.read rfl rfl rfl (.inr rfl) rfl rfl rfl
        done := h.done
        operations := h.operations
        isOpen := h.isOpen
        finished := h.finished
        stopping := h.stopping
        released := h.released }
  · rw [hturn]
    refine ⟨⟨.refl, rfl, hreleased.symm⟩, { n with queue := [] },
      { link with sent := n.queue.reverse ++ link.sent }, ?_⟩
    exact
      { linked := h.linked.write
        done := h.done
        operations := h.operations
        isOpen := h.isOpen
        finished := h.finished
        stopping := h.stopping
        released := h.released }

end Opened

namespace Phase

theorem readerTurn (h : Phase config id came (fun t => t ∈ c.ready ∨ t = .reader) c) :
    Phase config id came (· ∈ c.readerTurn.ready) c.readerTurn ∧
      (c.readerTurn = c ∨ Serves id c c.readerTurn) := by
  have hidle (hnone : c.connection = none) : c.readerTurn = c := by
    rw [Client.readerTurn, hnone]
  cases h with
  | exchanging h =>
    rw [hidle h.connection]
    exact ⟨.exchanging { h with waits := by simpa using h.waits }, .inl rfl⟩
  | refused h =>
    rw [hidle h.connection]
    exact ⟨.refused h, .inl rfl⟩
  | panicked h =>
    rw [hidle h.connection]
    exact ⟨.panicked h, .inl rfl⟩
  | asking h =>
    obtain ⟨n', link', hwakes, h'⟩ := h.readerTurn
    refine ⟨.asking h', .inr ⟨hwakes, h'.operations.trans h.operations.symm, ?_⟩⟩
    rw [h.linked.isReleased_eq, h'.linked.isReleased_eq, h.released, h'.released]
  | closing h =>
    obtain ⟨hserves, n', link', h'⟩ := h.readerTurn
    exact ⟨.closing h', .inr hserves⟩
  | notOpened h =>
    rw [h.readerTurn]
    exact ⟨.notOpened h, .inl rfl⟩
  | opened h =>
    obtain ⟨hserves, n', link', h'⟩ := h.readerTurn
    exact ⟨.opened h', .inr hserves⟩

theorem writerTurn (h : Phase config id came (fun t => t ∈ c.ready ∨ t = .writer) c) :
    Phase config id came (· ∈ c.writerTurn.ready) c.writerTurn ∧
      (c.writerTurn = c ∨ Serves id c c.writerTurn) := by
  have hidle (hnone : c.connection = none) : c.writerTurn = c := by
    rw [Client.writerTurn, hnone]
  cases h with
  | exchanging h =>
    rw [hidle h.connection]
    exact ⟨.exchanging { h with waits := by simpa using h.waits }, .inl rfl⟩
  | refused h =>
    rw [hidle h.connection]
    exact ⟨.refused h, .inl rfl⟩
  | panicked h =>
    rw [hidle h.connection]
    exact ⟨.panicked h, .inl rfl⟩
  | asking h =>
    obtain ⟨n', link', hwakes, h'⟩ := h.writerTurn
    refine ⟨.asking h', .inr ⟨hwakes, h'.operations.trans h.operations.symm, ?_⟩⟩
    rw [h.linked.isReleased_eq, h'.linked.isReleased_eq, h.released, h'.released]
  | closing h =>
    obtain ⟨hserves, n', h'⟩ := h.writerTurn
    exact ⟨.closing h', .inr hserves⟩
  | notOpened h =>
    rw [h.writerTurn]
    exact ⟨.notOpened h, .inl rfl⟩
  | opened h =>
    obtain ⟨hserves, n', link', h'⟩ := h.writerTurn
    exact ⟨.opened h', .inr hserves⟩

theorem operationTurn (h : Phase config id came (fun t => t ∈ c.ready ∨ t = .operation id) c) :
    Phase config id came (· ∈ (c.operationTurn id).ready) (c.operationTurn id) ∧
      (c.operationTurn id = c ∨ Advances id c (c.operationTurn id)) := by
  have hidle (hnone : c.operations = []) : c.operationTurn id = c := by
    rw [Client.operationTurn, hnone]
    rfl
  cases h with
  | exchanging h =>
    rcases h.operationTurn with ⟨hturn, h'⟩ | ⟨hadvances, h'⟩
    · rw [hturn]
      exact ⟨.exchanging h', .inl rfl⟩
    · exact ⟨h', .inr hadvances⟩
  | refused h =>
    rw [hidle h.operations]
    exact ⟨.refused h, .inl rfl⟩
  | panicked h =>
    rw [hidle h.operations]
    exact ⟨.panicked h, .inl rfl⟩
  | asking h =>
    rcases h.operationTurn with ⟨hturn, h'⟩ | ⟨hadvances, h'⟩
    · rw [hturn]
      exact ⟨.asking h', .inl rfl⟩
    · exact ⟨h', .inr hadvances⟩
  | closing h =>
    rcases h.operationTurn with ⟨hturn, h'⟩ | ⟨hadvances, n', h'⟩
    · rw [hturn]
      exact ⟨.closing h', .inl rfl⟩
    · exact ⟨.notOpened h', .inr hadvances⟩
  | notOpened h =>
    rw [hidle h.operations]
    exact ⟨.notOpened h, .inl rfl⟩
  | opened h =>
    rw [hidle h.operations]
    exact ⟨.opened h, .inl rfl⟩

end Phase

end Client

end CqlClient
