import CqlClient.Proofs.Outcome
import CqlClient.Proofs.Session.Client.ResultUse
import CqlClient.Proofs.Session.Paging

/-!
# Events and the results of a client

Each function by which an operation gets at a result is taken by itself: being served, asking for
the cursor, waiting for a page, giving up.

* `Client.serve_sound`, `Client.lock_sound`: who has the cursor, or finds it free, is served;
* `Client.waiting_page_sound`, `Client.fail_page_sound`: a page comes, or the cursor passes on;
* `Client.happen_sound`: every event keeps cursors with their holders and changes results by their
  use only;
* `Client.cursorsHeld_opening`, `Client.CursorsHeld.after`, `Client.CursorsHeld.perform`: so cursors
  are with their holders from the opening of a session on, whatever happens.
-/

namespace CqlClient

namespace Client

variable {c c' c₀ c₁ : Client} {id : OperationId} {key : Nat} {shared shared' : SharedResult}
  {u : Use}

/-! ## Being served -/

/-- A fetch that fails at once passes the cursor on. -/
theorem fail_page_leaves (key : Nat) (consumer : Consumer) (fault : ExecutionFault) :
    Leaves id (c.unlock key) (c.fail id (.page key consumer) fault) :=
  leaves_deliver key consumer _

/-- The request of a page is waited for, with the cursor, or has failed. -/
theorem call_page_actsOn (hkey : c.results.lookup key = some shared)
    (hholder : shared.holder = some id) (request : Request) (tracing : Bool) (consumer : Consumer) :
    ∃ shared', ActsOn id key shared' c (c.call id request tracing (.page key consumer)) ∧
      shared'.result = shared.result := by
  rcases call_cases (c := c) id request tracing (.page key consumer) with
    ⟨c₀, fault, hbooks, hcall⟩ | ⟨stage, hstage, hbooks⟩
  · rw [hcall]
    rw [← results_of_books hbooks] at hkey
    exact ⟨_, ((fail_page_leaves key consumer fault).actsOn_unlock hkey).of_books hbooks rfl,
      Paging.unlock_result shared⟩
  · have hcursor := (Stage.asks?_of_goal? hstage).2
    refine ⟨shared, (actsOn_set hkey fun k hk => ⟨?_, hholder⟩).of_books rfl hbooks, rfl⟩
    cases hcursor.symm.trans hk
    rfl

/-- An operation that was served passes the cursor on. -/
theorem served_actsOn {service : Service} {result : ResultSet} {consumer : Consumer}
    (hkey : c.results.lookup key = some shared)
    (hserve : shared.result.serve c.config.registry consumer.want = (.inl service, result))
    (hleaves : Leaves id ((c.modifyResult key fun shared => { shared with result }).unlock key)
      c') :
    ∃ shared', ActsOn id key shared' c c' ∧
      (Use.serve id consumer service).Changes c.config.registry shared.result shared'.result ∧
      (c'.Fetches id key → ∃ request, Use.serve id consumer service = .ask id request) := by
  refine ⟨_, (hleaves.actsOn_unlock (lookup_modifyResult_self hkey _)).of_modifyResult, ?_,
    fun hf => absurd hf (not_fetches_of_free hleaves.free)⟩
  rw [Paging.unlock_result]
  exact .serve hserve

/-- The holder of a cursor is served: what it gets is what the result gives it. -/
theorem serve_actsOn (hkey : c.results.lookup key = some shared)
    (hholder : shared.holder = some id) (consumer : Consumer) :
    ∃ shared', ActsOn id key shared' c (c.serve id key consumer) ∧
      (serveUse c.config.registry id consumer shared.result).Changes c.config.registry
        shared.result shared'.result ∧
      ((c.serve id key consumer).Fetches id key →
        ∃ request, serveUse c.config.registry id consumer shared.result = .ask id request) := by
  unfold serve serveUse
  rw [hkey]
  simp only
  cases hserve : shared.result.serve c.config.registry consumer.want with
  | mk served result =>
    cases served with
    | inl service =>
      simp only
      split
      next item heq =>
        cases heq
        exact served_actsOn hkey hserve (leaves_deliver ..)
      next fetched heq =>
        cases heq
        exact served_actsOn hkey hserve (leaves_finish _)
      next state heq =>
        cases heq
        exact served_actsOn hkey hserve (leaves_finish _)
      next heq => cases heq
    | inr request =>
      have hkey₁ := lookup_modifyResult_self hkey fun shared => { shared with result }
      obtain ⟨shared', hacts, hresult⟩ :=
        call_page_actsOn hkey₁ hholder request.1 request.2 consumer
      refine ⟨shared', hacts.of_modifyResult, ?_, fun _ => ⟨request, rfl⟩⟩
      rw [hresult]
      exact .ask hserve

/-! ## Turns of operations -/

theorem not_fetches_of_stage {stage : Stage} (hstage : c.operations.lookup id = some stage)
    (hidle : stage.asks? = none) : ¬ c.Fetches id key := by
  rintro ⟨stage', hstage', hasks⟩
  cases hstage.symm.trans hstage'
  cases hidle.symm.trans hasks

variable {stage : Stage} {consumer : Consumer} {ready : List Task}

theorem eventUse_turn (hstage : c.operations.lookup id = some stage) (k : Nat) (s : SharedResult) :
    c.eventUse k s (.turn (.operation id) ready) = c.stageUse id k s stage := by
  rw [eventUse, hstage]

theorem use_eq_nothing {e : Event}
    (hnothing : ∀ k s, c.results.lookup k = some s → c.eventUse k s e = .nothing) :
    (c.use · e) = fun _ => .nothing := by
  funext k
  unfold use
  split
  next s hk => exact hnothing k s hk
  next => rfl

theorem use_eq {e : Event} (hkey : c.results.lookup key = some shared)
    (hother : ∀ k s, k ≠ key → c.eventUse k s e = .nothing) :
    (c.use · e) = fun k => if key = k then c.eventUse key shared e else .nothing := by
  funext k
  unfold use
  split
  next s hk =>
    split
    next heq =>
      subst heq
      cases hkey.symm.trans hk
      rfl
    next hne => exact hother k s (Ne.symm hne)
  next hk =>
    rw [if_neg]
    rintro rfl
    cases hkey.symm.trans hk

/-- Marking a result that is not there changes nothing. -/
theorem Leaves.of_modifyResult_none {f : SharedResult → SharedResult}
    (hkey : c.results.lookup key = none) (h : Leaves id (c.modifyResult key f) c') :
    Leaves id c c' := by
  refine ⟨h.config, h.others, fun k s hk => h.results k s ?_, h.free⟩
  rw [lookup_modifyResult, hk, Option.map_some, if_neg]
  rintro rfl
  cases hkey.symm.trans hk

theorem serve_none_leaves (hkey : c.results.lookup key = none) (consumer : Consumer) :
    Leaves id c (c.serve id key consumer) := by
  rw [serve, hkey]
  exact leaves_finish _

theorem lock_none_leaves (hkey : c.results.lookup key = none) (consumer : Consumer) :
    Leaves id c (c.lock id key consumer) := by
  rw [lock, hkey]
  refine .of_modifyResult_none hkey (serve_none_leaves ?_ consumer)
  rw [lookup_modifyResult, hkey]
  rfl

/-- Asking for a cursor: it is given at once if nobody has it. -/
theorem lock_sound (h : c.CursorsHeld) (hkey : c.results.lookup key = some shared)
    (hidle : ¬ c.Fetches id key) (consumer : Consumer) :
    Sound c (fun k => if key = k then
        (if shared.holder = none then serveUse c.config.registry id consumer shared.result
          else .nothing)
        else .nothing)
      (c.lock id key consumer) := by
  have hkey₁ := lookup_modifyResult_self hkey (·.lock id)
  unfold lock
  rw [hkey, Option.bind_some]
  cases hholder : shared.holder with
  | none =>
    have hlock : shared.lock id = { shared with holder := some id } := by
      rw [SharedResult.lock, hholder]
    rw [hlock] at hkey₁
    obtain ⟨shared', hacts, hchanges, hfetches⟩ := serve_actsOn hkey₁ rfl consumer
    rw [if_pos rfl]
    refine hacts.of_modifyResult.sound h hkey (fun q hq => ?_) hchanges
      (fun hf => absurd hf hidle) hfetches
    cases hholder.symm.trans hq
  | some holder =>
    have hacts : ActsOn id key (shared.lock id) _
        ((c.modifyResult key (·.lock id)).set id (.locking key consumer)) :=
      actsOn_set hkey₁ fun k hk => by cases hk
    rw [if_neg (by simp)]
    have hsound := hacts.of_modifyResult.sound_of_eq h hkey (Paging.lock_result ..)
      (fun q _ hq => Paging.lock_holder hq) fun hf => absurd hf (not_fetches_set rfl)
    simpa only [ite_self] using hsound

theorem take_eq (hkey : c.results.lookup key = some shared) (consumer : Consumer) :
    c.take id key consumer =
      if consumer.want = .row ∧ shared.result.exhausted = true then
        c.deliver id key consumer none
      else c.lock id key consumer := by
  unfold take
  rw [hkey]
  cases consumer <;> simp [Consumer.want]

/-- An operation that starts to take from a result. -/
theorem take_sound (h : c.CursorsHeld) (hstage : c.operations.lookup id = some stage)
    (hidle : stage.asks? = none)
    (huse : ∀ k s, c.stageUse id k s stage =
      if key = k ∧ s.holder = none ∧ ¬ (consumer.want = .row ∧ s.result.exhausted = true) then
        serveUse c.config.registry id consumer s.result
      else .nothing) :
    Sound c (c.use · (.turn (.operation id) ready)) (c.take id key consumer) := by
  have hother : ∀ k s, k ≠ key → c.eventUse k s (.turn (.operation id) ready) = .nothing := by
    intro k s hk
    rw [eventUse_turn hstage, huse, if_neg]
    rintro ⟨rfl, _⟩
    exact hk rfl
  cases hkey : c.results.lookup key with
  | none =>
    rw [use_eq_nothing fun k s hk => hother k s ?_]
    · have hleaves : Leaves id c (c.take id key consumer) := by
        unfold take
        rw [hkey]
        split
        · exact lock_none_leaves hkey _
        · exact lock_none_leaves hkey _
        · exact leaves_deliver ..
      exact hleaves.sound h
    · rintro rfl
      cases hkey.symm.trans hk
  | some shared =>
    rw [use_eq hkey hother, eventUse_turn hstage, huse, take_eq hkey]
    by_cases hexhausted : consumer.want = .row ∧ shared.result.exhausted = true
    · rw [if_pos hexhausted, if_neg fun hf => hf.2.2 hexhausted]
      have hleaves : Leaves id c _ := leaves_deliver key consumer none
      simpa only [ite_self] using hleaves.sound h
    · rw [if_neg hexhausted]
      simpa only [hexhausted, not_false_eq_true, and_true, true_and] using
        lock_sound h hkey (not_fetches_of_stage hstage hidle) consumer

/-- The turn of an operation that has the cursor of a result. -/
theorem serve_sound (h : c.CursorsHeld) (hkey : c.results.lookup key = some shared)
    (hholder : shared.holder = some id) (hidle : ¬ c.Fetches id key) (consumer : Consumer) :
    Sound c (fun k => if key = k then serveUse c.config.registry id consumer shared.result
        else .nothing)
      (c.serve id key consumer) := by
  obtain ⟨shared', hacts, hchanges, hfetches⟩ := serve_actsOn hkey hholder consumer
  refine hacts.sound h hkey (fun q hq => ?_) hchanges (fun hf => absurd hf hidle) hfetches
  cases hholder.symm.trans hq
  rfl

/-- An operation that has had the cursor and passes it on. -/
theorem ActsOn.sound_of_unlock {s : SharedResult} (hacts : ActsOn id key s.unlock c c')
    (hfree : c'.IsFree id) (h : c.CursorsHeld) (hkey : c.results.lookup key = some shared)
    (hholder : shared.holder = some id)
    (hchanges : u.Changes c.config.registry shared.result s.result)
    (hbefore : u = .nothing ∨ ∃ rows, u = .receive id rows) :
    Sound c (fun k => if key = k then u else .nothing) c' := by
  refine hacts.sound h hkey (fun q hq => ?_) ?_ (fun _ => hbefore)
    fun hf => absurd hf (not_fetches_of_free hfree)
  · cases hholder.symm.trans hq
    rfl
  · rw [Paging.unlock_result]
    exact hchanges

/-- An operation whose page does not come passes the cursor on. -/
theorem fail_page_sound (h : c.CursorsHeld) (hkey : c.results.lookup key = some shared)
    (hholder : shared.holder = some id) (consumer : Consumer) (fault : ExecutionFault) :
    Sound c (fun _ => .nothing) (c.fail id (.page key consumer) fault) := by
  have hleaves : Leaves id (c.unlock key) _ := fail_page_leaves key consumer fault
  have hsound := (hleaves.actsOn_unlock hkey).sound_of_unlock hleaves.free h hkey hholder
    .nothing (.inl rfl)
  simpa only [ite_self] using hsound

/-- A page that has come is taken in by the operation that waits for it. -/
theorem receive_sound {service : Option Service} {result : ResultSet} {rows : Rows}
    (h : c.CursorsHeld) (hkey : c.results.lookup key = some shared)
    (hholder : shared.holder = some id) {consumer : Consumer}
    (hreceive : shared.result.receive consumer.want (.result (.rows rows)) =
      .ok (service, result)) :
    Sound c (fun k => if key = k then .receive id rows else .nothing)
      (c.addPage id key consumer (.result (.rows rows))) := by
  have hkey₁ := lookup_modifyResult_self hkey fun shared => { shared with result }
  unfold addPage
  rw [hkey]
  simp only [hreceive]
  split
  next fetched =>
    have hleaves : Leaves id
        ((c.modifyResult key fun shared => { shared with result }).unlock key) _ :=
      leaves_finish (.page fetched)
    exact (hleaves.actsOn_unlock hkey₁).of_modifyResult.sound_of_unlock hleaves.free h hkey hholder
      (.receive hreceive) (.inr ⟨rows, rfl⟩)
  next =>
    have hset : ActsOn id key { shared with result } _
        ((c.modifyResult key fun shared => { shared with result }).set id
          (.holding key consumer)) :=
      actsOn_set hkey₁ fun k hk => by
        cases hk
        exact ⟨rfl, hholder⟩
    have hacts : ActsOn id key { shared with result } c
        ((c.modifyResult key fun shared => { shared with result }).proceed id
          (.holding key consumer)) := hset.of_modifyResult.of_books rfl rfl
    refine hacts.sound h hkey (fun q hq => ?_) (.receive hreceive) (fun _ => .inr ⟨rows, rfl⟩)
      fun hf => absurd hf (not_fetches_set rfl)
    cases hholder.symm.trans hq
    rfl

/-- An operation that has sent a request needs no cursor, or has the one that it needs. -/
theorem goal_cases (h : c.CursorsHeld) {goal : Goal} (hstage : c.operations.lookup id = some stage)
    (hgoal : stage.goal? = some goal) :
    (goal.cursor? = none ∧ c.IsFree id) ∨
    ∃ key consumer shared, goal = .page key consumer ∧ c.results.lookup key = some shared ∧
      shared.holder = some id ∧ c.Fetches id key := by
  obtain ⟨hasks, hcursor⟩ := Stage.asks?_of_goal? hgoal
  cases goal with
  | page key consumer =>
    obtain ⟨shared, hkey, hholder⟩ := h id stage key hstage hcursor
    exact .inr ⟨key, consumer, shared, rfl, hkey, hholder, stage, hstage, hasks⟩
  | _ =>
    refine .inl ⟨rfl, fun stage' hstage' => ?_⟩
    cases hstage.symm.trans hstage'
    exact hcursor

/-- A request that fails, whatever it is for. -/
theorem fail_sound (h : c.CursorsHeld) {goal : Goal} (hstage : c.operations.lookup id = some stage)
    (hgoal : stage.goal? = some goal) (hbooks : c₀.books = c.books) (fault : ExecutionFault) :
    Sound c (fun _ => .nothing) (c₀.fail id goal fault) := by
  have h₀ := h.of_books hbooks
  rw [← operations_of_books hbooks] at hstage
  refine Sound.of_books ?_ hbooks
  rcases goal_cases h₀ hstage hgoal with ⟨hcursor, hfree⟩ | ⟨key, consumer, shared, rfl, hkey,
    hholder, _⟩
  · exact (leaves_fail hfree hcursor fault).sound h₀
  · exact fail_page_sound h₀ hkey hholder consumer fault

/-- The turn of an operation whose frame waits for room in the queue. -/
theorem queued_sound (h : c.CursorsHeld) {stream : Nat} {frame : Bytes} {goal : Goal}
    (hstage : c.operations.lookup id = some (.queued stream frame goal)) :
    Sound c (c.use · (.turn (.operation id) ready)) (c.operationTurn id) := by
  rw [use_eq_nothing fun k s _ => eventUse_turn hstage k s]
  unfold operationTurn
  rw [hstage]
  simp only
  split
  · exact h.sound rfl rfl rfl
  · split
    · exact fail_sound h hstage rfl (books_leaveStream ..) _
    · split
      · exact h.sound rfl rfl rfl
      · have hbooks : ((c.modifyConnection fun n => { n with granted := n.granted - 1 }).enqueue id
            stream frame goal).books = (c.set id (.waiting stream goal)).books :=
          books_enqueue stream frame
        rcases goal_cases h hstage rfl with ⟨hcursor, _⟩ | ⟨key, consumer, shared, rfl, hkey,
          hholder, hfetches⟩
        · have hwaiting : (Stage.waiting stream goal).cursor? = none := hcursor
          exact (Leaves.of_books (leaves_set hwaiting) rfl hbooks).sound h
        · have hset : ActsOn id key shared c (c.set id (.waiting stream (.page key consumer))) :=
            actsOn_set hkey fun k hk => by
              cases hk
              exact ⟨rfl, hholder⟩
          exact (hset.of_books rfl hbooks).sound_of_eq h hkey rfl (fun _ _ hq => hq)
            fun _ => hfetches

/-- An operation that waits goes on once its answer is there. -/
theorem operationTurn_waiting {stream : Nat} {goal : Goal}
    (hstage : c.operations.lookup id = some (.waiting stream goal)) :
    (c.answer? stream = none ∧ c.operationTurn id = c) ∨
    ∃ (c₀ : Client) (answer : Except ExecutionFault Response), c₀.books = c.books ∧
      c.answer? stream = some answer ∧
      c.operationTurn id = match answer with
        | .error fault => c₀.fail id goal fault
        | .ok response => c₀.settle id goal response := by
  unfold operationTurn answer?
  rw [hstage]
  simp only
  cases c.connection with
  | none => exact .inl ⟨rfl, rfl⟩
  | some n =>
    simp only [Option.bind_eq_bind, Option.bind_some]
    split
    next hnone =>
      rw [hnone]
      exact .inl ⟨rfl, rfl⟩
    next result pool hsome =>
      rw [hsome]
      refine .inr ⟨c.modifyConnection fun n => { n with pool := pool.leave stream true },
        readAnswer n c.config.depthLimit result, rfl, rfl, ?_⟩
      split
      next fault hanswer =>
        rw [show readAnswer n c.config.depthLimit result = .error fault from hanswer]
      next response hanswer =>
        rw [show readAnswer n c.config.depthLimit result = .ok response from hanswer]

/-- The turn of an operation whose request waits for its answer, unless it asked for a page. -/
theorem waiting_other_sound (h : c.CursorsHeld) {stream : Nat} {goal : Goal}
    (hstage : c.operations.lookup id = some (.waiting stream goal)) (hgoal : goal.cursor? = none)
    (hfree : c.IsFree id) :
    Sound c (c.use · (.turn (.operation id) ready)) (c.operationTurn id) := by
  have hnothing : ∀ k s, c.stageUse id k s (.waiting stream goal) = .nothing := by
    intro k s
    cases goal with
    | page => cases hgoal
    | _ => rfl
  rw [use_eq_nothing fun k s _ => (eventUse_turn hstage k s).trans (hnothing k s)]
  rcases operationTurn_waiting hstage with ⟨_, hturn⟩ | ⟨c₀, answer, hbooks, _, hturn⟩
  · rw [hturn]
    exact h.sound rfl rfl rfl
  · rw [hturn]
    cases answer with
    | error fault => exact fail_sound h hstage rfl hbooks fault
    | ok response =>
      exact ((leaves_settle (hfree.of_books hbooks) hgoal response).of_books hbooks rfl).sound h

/-- The turn of an operation that waits for a page. -/
theorem waiting_page_sound (h : c.CursorsHeld) {stream : Nat} {consumer : Consumer}
    (hstage : c.operations.lookup id = some (.waiting stream (.page key consumer)))
    (hkey : c.results.lookup key = some shared) (hholder : shared.holder = some id) :
    Sound c (c.use · (.turn (.operation id) ready)) (c.operationTurn id) := by
  rw [use_eq hkey fun k s hk => (eventUse_turn hstage k s).trans (if_neg hk.symm),
    eventUse_turn hstage]
  have huse : c.stageUse id key shared (.waiting stream (.page key consumer)) =
      c.pageUse id stream consumer shared.result := if_pos rfl
  rw [huse, pageUse]
  rcases operationTurn_waiting hstage with ⟨hanswer, hturn⟩ | ⟨c₀, answer, hbooks, hanswer, hturn⟩
  · rw [hturn, hanswer]
    simpa only [ite_self] using h.sound rfl rfl rfl
  · rw [hturn, hanswer]
    have h₀ := h.of_books hbooks
    rw [← results_of_books hbooks] at hkey
    refine Sound.of_books ?_ hbooks
    cases answer with
    | error fault =>
      simpa only [ite_self] using fail_page_sound h₀ hkey hholder consumer fault
    | ok response =>
      simp only [settle]
      cases hreceive : shared.result.receive consumer.want response.body with
      | error fault =>
        have hadd : c₀.addPage id key consumer response.body =
            c₀.fail id (.page key consumer) fault := by
          rw [addPage, hkey]
          simp only [hreceive]
        rw [hadd]
        simpa only [ite_self] using fail_page_sound h₀ hkey hholder consumer fault
      | ok received =>
        obtain ⟨service, result⟩ := received
        obtain ⟨rows, hbody, _⟩ := ResultSet.receive_ok (r := c.config.registry) hreceive
        rw [hbody] at hreceive ⊢
        exact receive_sound h₀ hkey hholder hreceive

/-- The turn of an operation that waits for the cursor: it goes on if it was given to it. -/
theorem locking_sound (h : c.CursorsHeld)
    (hstage : c.operations.lookup id = some (.locking key consumer)) :
    Sound c (c.use · (.turn (.operation id) ready)) (c.operationTurn id) := by
  by_cases hholder : (c.results.lookup key).bind (·.holder) = some id
  · obtain ⟨shared, hkey, hholder'⟩ := Option.bind_eq_some_iff.mp hholder
    have hturn : c.operationTurn id = c.serve id key consumer := by
      rw [operationTurn, hstage]
      exact if_pos hholder
    rw [hturn, use_eq hkey fun k s hk => (eventUse_turn hstage k s).trans (if_neg ?_),
      eventUse_turn hstage]
    · have huse : c.stageUse id key shared (.locking key consumer) =
          serveUse c.config.registry id consumer shared.result := if_pos ⟨rfl, hholder'⟩
      rw [huse]
      exact serve_sound h hkey hholder' (not_fetches_of_stage hstage rfl) consumer
    · exact fun hf => hk hf.1.symm
  · have hturn : c.operationTurn id = c := by
      rw [operationTurn, hstage]
      exact if_neg hholder
    rw [hturn, use_eq_nothing fun k s hk => (eventUse_turn hstage k s).trans (if_neg ?_)]
    · exact h.sound rfl rfl rfl
    · rintro ⟨rfl, hk'⟩
      exact hholder (by rw [hk, Option.bind_some, hk'])

theorem holding_sound (h : c.CursorsHeld)
    (hstage : c.operations.lookup id = some (.holding key consumer)) :
    Sound c (c.use · (.turn (.operation id) ready)) (c.operationTurn id) := by
  obtain ⟨shared, hkey, hholder⟩ := h id _ key hstage rfl
  have hturn : c.operationTurn id = c.serve id key consumer := by rw [operationTurn, hstage]
  rw [hturn, use_eq hkey fun k s hk => (eventUse_turn hstage k s).trans (if_neg hk.symm),
    eventUse_turn hstage]
  have huse : c.stageUse id key shared (.holding key consumer) =
      serveUse c.config.registry id consumer shared.result := if_pos rfl
  rw [huse]
  exact serve_sound h hkey hholder (not_fetches_of_stage hstage rfl) consumer

theorem operationTurn_sound (h : c.CursorsHeld) :
    Sound c (c.use · (.turn (.operation id) ready)) (c.operationTurn id) := by
  cases hstage : c.operations.lookup id with
  | none =>
    have hnothing : (c.use · (.turn (.operation id) ready)) = fun _ => Use.nothing :=
      use_eq_nothing fun k s _ => by rw [eventUse, hstage]
    rw [hnothing, operationTurn, hstage]
    exact h.sound rfl rfl rfl
  | some stage =>
    have hfree : stage.cursor? = none → c.IsFree id := by
      intro hcursor stage' hstage'
      cases hstage.symm.trans hstage'
      exact hcursor
    cases stage with
    | fresh operation =>
      have hturn : c.operationTurn id = c.start id operation := by rw [operationTurn, hstage]
      rw [hturn]
      by_cases hconsume : ∃ key consumer, operation = .consume key consumer
      · obtain ⟨key, consumer, rfl⟩ := hconsume
        exact take_sound h hstage rfl fun _ _ => rfl
      · rw [use_eq_nothing fun k s _ => (eventUse_turn hstage k s).trans ?_]
        · refine (leaves_start (hfree rfl) fun key consumer heq => ?_).sound h
          exact hconsume ⟨key, consumer, heq⟩
        · cases operation with
          | consume key consumer => exact absurd ⟨key, consumer, rfl⟩ hconsume
          | _ => rfl
    | opening handshake =>
      rw [use_eq_nothing fun k s _ => eventUse_turn hstage k s, operationTurn, hstage]
      exact (leaves_openingTurn (hfree rfl) handshake).sound h
    | queued stream frame goal => exact queued_sound h hstage
    | waiting stream goal =>
      rcases goal_cases h hstage rfl with ⟨hcursor, hfree⟩ | ⟨key, consumer, shared, rfl, hkey,
        hholder, _⟩
      · exact waiting_other_sound h hstage hcursor hfree
      · exact waiting_page_sound h hstage hkey hholder
    | taking key consumer =>
      have hturn : c.operationTurn id = c.take id key consumer := by rw [operationTurn, hstage]
      rw [hturn]
      exact take_sound h hstage rfl fun _ _ => rfl
    | locking key consumer => exact locking_sound h hstage
    | holding key consumer => exact holding_sound h hstage
    | closing outcome =>
      rw [use_eq_nothing fun k s _ => eventUse_turn hstage k s, operationTurn, hstage]
      simp only
      split
      · exact h.sound rfl rfl rfl
      · exact ((leaves_finish outcome).of_books (books_modifyConnection _) rfl).sound h

/-! ## Every event -/

theorem CursorsHeld.sound_of_books (h : c.CursorsHeld) (hbooks : c'.books = c.books) :
    Sound c (fun _ => .nothing) c' :=
  h.sound (config_of_books hbooks) (operations_of_books hbooks) (results_of_books hbooks)

theorem turn_sound (h : c.CursorsHeld) (task : Task) :
    Sound c (c.use · (.turn task ready)) (c.turn task) := by
  cases task with
  | operation id => exact operationTurn_sound h
  | reader =>
    rw [use_eq_nothing fun _ _ _ => rfl]
    exact h.sound_of_books books_readerTurn
  | writer =>
    rw [use_eq_nothing fun _ _ _ => rfl]
    exact h.sound_of_books books_writerTurn

theorem begin_leaves (operation : Operation) : Leaves id c (c.begin id operation) :=
  Leaves.of_books (leaves_set rfl) rfl (books_wake _)

theorem call?_eq_ok {call : Call} (h : c.call? id call = .ok c') :
    ∃ (c₀ : Client) (operation : Operation), c₀.config = c.config ∧
      c₀.operations = c.operations ∧ c₀.results = c.results ∧ c' = c₀.begin id operation := by
  unfold call? at h
  simp only at h
  by_cases hbusy : (c.operations.lookup id).isSome = true
  · rw [if_pos hbusy] at h
    cases h
  · rw [if_neg hbusy] at h
    obtain ⟨operation, _, h⟩ := bind_eq_ok.mp h
    cases call with
    | drain label => exact ⟨c.forget label, operation, rfl, rfl, rfl, (Except.ok.inj h).symm⟩
    | _ => exact ⟨c, operation, rfl, rfl, rfl, (Except.ok.inj h).symm⟩

theorem call_sound (h : c.CursorsHeld) (call : Call) :
    Sound c (fun _ => .nothing) (c.happen (.call id call)) := by
  rw [happen]
  split
  next c' hcall =>
    obtain ⟨c₀, operation, hconfig, hoperations, hresults, rfl⟩ := call?_eq_ok hcall
    have hleaves : Leaves id c₀ _ := begin_leaves operation
    refine Leaves.sound ⟨hleaves.config.trans hconfig, ?_, ?_, hleaves.free⟩ h
    · rw [← hoperations]
      exact hleaves.others
    · rw [← hresults]
      exact hleaves.results
  · exact h.sound rfl rfl rfl

/-- Setting what a result holds, without touching its lock. -/
theorem modifyResult_sound {f : SharedResult → SharedResult} (h : c.CursorsHeld)
    (hkey : c.results.lookup key = some shared) (hholder : (f shared).holder = shared.holder)
    (hquiet : u = .nothing ∨ shared.holder = none)
    (hchanges : u.Changes c.config.registry shared.result (f shared).result) :
    Sound c (fun k => if key = k then u else .nothing) (c.modifyResult key f) := by
  have hkey₁ := lookup_modifyResult_self hkey f
  have hother : ∀ k s, k ≠ key → c.results.lookup k = some s →
      (c.modifyResult key f).results.lookup k = some s := by
    intro k s hk hs
    rw [lookup_modifyResult, hs, Option.map_some, if_neg hk]
  constructor
  case config => rfl
  case held =>
    intro q stage k hstage hcursor
    obtain ⟨s, hk, hq⟩ := h q stage k hstage hcursor
    by_cases heq : k = key
    · subst heq
      cases hkey.symm.trans hk
      exact ⟨f shared, hkey₁, hholder.trans hq⟩
    · exact ⟨s, hother k s heq hk, hq⟩
  case effect =>
    intro k
    split
    next heq =>
      subst heq
      have hnothing : ∀ q, c.Fetches q key → u = .nothing := by
        rintro q ⟨stage, hstage, hasks⟩
        rcases hquiet with hnothing | hfree
        · exact hnothing
        · obtain ⟨s, hk, hq⟩ := h q stage key hstage (Stage.cursor?_of_asks? hasks)
          cases hkey.symm.trans hk
          cases hfree.symm.trans hq
      refine ⟨fun s hs => ?_, fun q hq => .inl ⟨hnothing q hq, hq⟩,
        fun q hq => .inl (hnothing q hq)⟩
      cases hkey.symm.trans hs
      exact ⟨f shared, hkey₁, hchanges⟩
    next hne =>
      exact ⟨fun s hs => ⟨s, hother k s (Ne.symm hne) hs, .nothing⟩, fun q hq => .inl ⟨rfl, hq⟩,
        fun _ _ => .inl rfl⟩

theorem happen_tryTake {label : OperationId} (hlabel : c.held.lookup label = some key) :
    c.happen (.tryTake label) = (c.tryTake key).2 := by
  rw [happen, tryTake?, heldResult, hlabel]
  simp only [Except.map]
  obtain ⟨item, c'⟩ := c.tryTake key
  cases item with
  | none => rfl
  | some item => cases item <;> rfl

theorem tryTake_eq (hkey : c.results.lookup key = some shared) :
    (c.tryTake key).2 =
      c.modifyResult key fun _ => (shared.tryTake c.config.registry).2 := by
  rw [tryTake, hkey]

/-- A row is tried for; while somebody has the cursor, there is none. -/
theorem tryTake_sound (h : c.CursorsHeld) (label : OperationId) :
    Sound c (c.use · (.tryTake label)) (c.happen (.tryTake label)) := by
  cases hlabel : c.held.lookup label with
  | none =>
    rw [use_eq_nothing fun k s _ => by simp [eventUse, hlabel]]
    have hhappen : c.happen (.tryTake label) = c := by
      rw [happen, tryTake?, heldResult, hlabel]
      rfl
    rw [hhappen]
    exact h.sound rfl rfl rfl
  | some key =>
    have hother : ∀ k s, k ≠ key → c.eventUse k s (.tryTake label) = .nothing := by
      intro k s hk
      simp [eventUse, hlabel, Ne.symm hk]
    rw [happen_tryTake hlabel]
    cases hkey : c.results.lookup key with
    | none =>
      rw [use_eq_nothing fun k s hk => hother k s ?_, tryTake, hkey]
      · exact h.sound rfl rfl rfl
      · rintro rfl
        cases hkey.symm.trans hk
    | some shared =>
      rw [use_eq hkey hother, tryTake_eq hkey]
      cases hholder : shared.holder with
      | none =>
        have huse : c.eventUse key shared (.tryTake label) =
            .tryTake (shared.result.tryTake c.config.registry).1 := if_pos ⟨hlabel, hholder⟩
        have htake : shared.tryTake c.config.registry =
            ((shared.result.tryTake c.config.registry).1,
              { shared with result := (shared.result.tryTake c.config.registry).2 }) := by
          rw [SharedResult.tryTake, hholder]
          rfl
        rw [huse, htake]
        exact modifyResult_sound h hkey rfl (.inr hholder) (.tryTake rfl)
      | some holder =>
        have huse : c.eventUse key shared (.tryTake label) = .nothing := by
          refine if_neg fun hf => ?_
          cases hholder.symm.trans hf.2
        have htake : shared.tryTake c.config.registry = (none, shared) := by
          rw [SharedResult.tryTake, hholder]
          rfl
        rw [huse, htake]
        exact modifyResult_sound h hkey rfl (.inl rfl) .nothing

theorem modifyResult_leaves (hfree : c.IsFree id) (hkey : c.results.lookup key = none)
    (f : SharedResult → SharedResult) : Leaves id c (c.modifyResult key f) :=
  Leaves.of_modifyResult_none (f := f) hkey (IsFree.leaves hfree)

theorem modifyResult_actsOn (hfree : c.IsFree id) (hkey : c.results.lookup key = some shared)
    (f : SharedResult → SharedResult) : ActsOn id key (f shared) c (c.modifyResult key f) :=
  Leaves.actsOn (f := f) (IsFree.leaves hfree) hkey

/-- Who gives up a result, or the wait for it, passes the cursor on if it has it. -/
theorem leaveResult_sound (h : c.CursorsHeld) (hleaves : Leaves id c c₁)
    (hresults : c₁.results = c.results) (key : Nat) :
    Sound c (fun _ => .nothing) (c₁.leaveResult id key) := by
  cases hkey : c.results.lookup key with
  | none =>
    have hkey₁ : c₁.results.lookup key = none := by rw [hresults, hkey]
    rw [leaveResult, hkey₁, if_neg (by simp)]
    exact (hleaves.trans (modifyResult_leaves hleaves.free hkey₁ _)).sound h
  | some shared =>
    have hkey₁ := hleaves.results key shared hkey
    rw [leaveResult, hkey₁, Option.bind_some]
    split
    next hholder =>
      have hfree : (c₁.unlock key).IsFree id := by
        have hmarked : (c₁.modifyResult key SharedResult.unlock).IsFree id := hleaves.free
        exact hmarked.of_books (books_unlock key)
      have hacts := (hfree.leaves.actsOn_unlock hkey₁).of_leaves hleaves
      simpa only [ite_self] using
        hacts.sound_of_unlock hfree h hkey hholder .nothing (.inl rfl)
    next hholder =>
      have hacts := (modifyResult_actsOn hleaves.free hkey₁ fun s =>
        { s with waiting := s.waiting.filter (· != id) }).of_leaves hleaves
      exact hacts.sound_of_eq h hkey rfl (fun _ _ hq => hq)
        fun hf => absurd hf (not_fetches_of_free (c := c₁) hleaves.free)

theorem leaveGoal_sound (h : c.CursorsHeld) (hleaves : Leaves id c c₁)
    (hresults : c₁.results = c.results) (goal : Goal) :
    Sound c (fun _ => .nothing) (c₁.leaveGoal id goal) := by
  cases goal with
  | page key consumer => exact leaveResult_sound h hleaves hresults key
  | _ => exact hleaves.sound h

theorem cancel_sound (h : c.CursorsHeld) : Sound c (fun _ => .nothing) (c.cancel id) := by
  have hleaves : Leaves id c { c with
      operations := removeEntry c.operations id
      ready := c.ready.filter (· != .operation id) } := by
    refine ⟨rfl, fun q hq => ?_, fun _ _ hkey => hkey, fun stage hstage => ?_⟩
    · rw [lookup_removeEntry, if_neg (by simpa using hq)]
    · rw [lookup_removeEntry, if_pos (beq_self_eq_true id)] at hstage
      cases hstage
  unfold cancel
  simp only
  split
  · exact h.sound rfl rfl rfl
  · refine Leaves.sound (hleaves.of_books rfl ?_) h
    rfl
  next stream frame goal _ =>
    refine leaveGoal_sound h (hleaves.of_books rfl ?_) ?_ goal
    · rfl
    · rfl
  next stream goal _ =>
    refine leaveGoal_sound h (hleaves.of_books rfl ?_) ?_ goal
    · rfl
    · rfl
  next key _ _ => exact leaveResult_sound h hleaves rfl key
  next key _ _ => exact leaveResult_sound h hleaves rfl key
  · exact hleaves.sound h
  · exact hleaves.sound h
  · exact hleaves.sound h

/-- Whatever happens to a client, cursors stay with their holders, and every result changes by its
use. -/
theorem happen_sound (h : c.CursorsHeld) (e : Event) : Sound c (c.use · e) (c.happen e) := by
  cases e with
  | turn task ready =>
    have h₀ : ({ c with ready } : Client).CursorsHeld := h
    exact (turn_sound h₀ task).of_books rfl
  | call id call =>
    rw [use_eq_nothing fun _ _ _ => rfl]
    exact call_sound h call
  | tryTake label => exact tryTake_sound h label
  | cancel id =>
    rw [use_eq_nothing fun _ _ _ => rfl]
    exact cancel_sound h
  | forget =>
    rw [use_eq_nothing fun _ _ _ => rfl]
    exact h.sound rfl rfl rfl
  | dropSession =>
    rw [use_eq_nothing fun _ _ _ => rfl]
    exact h.sound rfl rfl rfl
  | receive bytes =>
    rw [use_eq_nothing fun _ _ _ => rfl, happen, receive]
    split
    · exact h.sound rfl rfl rfl
    · exact h.sound_of_books (books_wakeListeners.trans rfl)
  | endSending =>
    rw [use_eq_nothing fun _ _ _ => rfl]
    exact h.sound_of_books (books_wakeListeners.trans rfl)
  | endTaking =>
    rw [use_eq_nothing fun _ _ _ => rfl]
    exact h.sound rfl rfl rfl
  | release =>
    rw [use_eq_nothing fun _ _ _ => rfl, happen]
    split
    · exact h.sound_of_books (books_release _)
    · exact h.sound rfl rfl rfl
  | clear =>
    rw [use_eq_nothing fun _ _ _ => rfl]
    exact h.sound rfl rfl rfl

theorem CursorsHeld.after (h : c.CursorsHeld) (events : List Event) :
    (c.after events).CursorsHeld := by
  induction events generalizing c with
  | nil => exact h
  | cons e events ih => exact ih (happen_sound h e).held

theorem CursorsHeld.settleDown (h : c.CursorsHeld) : c.settleDown.CursorsHeld := by
  obtain ⟨events, hrun⟩ := after_run (c := c) turnLimit
  rw [Client.settleDown, hrun]
  exact h.after events

theorem CursorsHeld.perform (h : c.CursorsHeld) (step : CqlClient.Step) :
    (c.perform step).2.CursorsHeld := by
  obtain ⟨events, hstep⟩ := after_perform c step
  rw [hstep]
  exact h.after events

/-- At first nobody needs a cursor. -/
theorem cursorsHeld_opening (config : SessionConfig) (id : OperationId) :
    (opening config id).CursorsHeld := by
  have hnobody (c : Client) (h : c.operations = []) : c.CursorsHeld := by
    intro id stage key hstage
    rw [h] at hstage
    cases hstage
  unfold opening
  simp only
  generalize Handshake.optionsFrame = frame
  cases frame with
  | ok frame => exact (hnobody _ rfl).leaves (leaves_sendFirst frame .asked)
  | error fault => exact (hnobody _ rfl).leaves (leaves_notOpened _)

end Client

end CqlClient
