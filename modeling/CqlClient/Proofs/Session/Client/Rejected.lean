import CqlClient.Proofs.Request.Sent
import CqlClient.Proofs.Session.Client.Delivery
import CqlClient.Proofs.Session.Client.Keyspace
import CqlClient.Proofs.Session.Client.Pool

/-!
# Requests that are refused before they are sent

What an operation submits at its turn may be refused on this side: its values, a length, the size of
its frame, or for want of a stream. The stream that it has claimed by then is given back, so that
the operation is told and nothing else has happened.

* `Client.Submits`, `Client.Rejects`: what is submitted, and why it is refused;
* `Client.call_rejected`: a refused request fails in the very state that it was made in;
* `Client.call_outcome`: a request that is not refused goes on, unless the connection is closed;
* `Client.rejected_without_trace`: so it is with every operation in every state of a session.
-/

namespace CqlClient

/-! ## Reasons -/

inductive Rejection where
  /-- Values cannot be encoded, or are not those that the statement takes. -/
  | values
  /-- A length does not fit its prefix. -/
  | length
  /-- No frame can hold the body. -/
  | frame
  | noStream
  deriving DecidableEq

/-- How callers may sort what they are told. -/
def Rejection.categories : Rejection → List Category
  | values => [.misuse, .unsupportedType, .valueTooLarge]
  | length => [.valueTooLarge]
  | frame => [.valueTooLarge]
  | noStream => [.transport]

namespace StreamPool

variable {p : StreamPool}

def HasFree (p : StreamPool) : Prop := ∃ id, id < p.size ∧ p.slot id = .free

theorem not_hasFree_of_claim? (h : p.Consistent) (hnone : p.claim? = none) : ¬ p.HasFree := by
  rintro ⟨id, hsmall, hslot⟩
  have hbit := (h id hsmall).mpr hslot
  cases hbit.symm.trans (p.claim?_eq_none.mp hnone id hsmall)

theorem hasFree_of_allocate (h : p.Consistent) {id : Nat} {p' : StreamPool}
    (hclaimed : p.allocate = (.ok id, p')) : p.HasFree := by
  obtain ⟨hsmall, hbit, -⟩ := claimed_of_allocate hclaimed
  exact ⟨id, hsmall, (h id hsmall).mp hbit⟩

theorem allocate_of_hasFree (h : p.Consistent) (hopened : p.closed = false) (hfree : p.HasFree) :
    ∃ id p', p.allocate = (.ok id, p') := by
  rcases p.allocate_cases with ⟨hclosed, -⟩ | ⟨-, hnone, -⟩ | ⟨id, -, -, hclaimed⟩
  · cases hopened.symm.trans hclosed
  · exact absurd hfree (not_hasFree_of_claim? h hnone)
  · exact ⟨id, _, hclaimed⟩

theorem allocate_of_full (h : p.Consistent) (hopened : p.closed = false) (hfull : ¬ p.HasFree) :
    p.allocate = (.error .noStream, p) := by
  rcases p.allocate_cases with ⟨hclosed, -⟩ | ⟨-, -, hrefused⟩ | ⟨id, -, -, hclaimed⟩
  · cases hopened.symm.trans hclosed
  · exact hrefused
  · exact absurd (hasFree_of_allocate h hclaimed) hfull

end StreamPool

theorem Request.frame_tooLong {request : Request} {fault : ValueTooLarge} (tracing : Bool)
    (stream : Int16) (hsize : request.size = .error fault) :
    request.frame tracing stream = .error (.tooLarge fault) := by
  rw [frame, hsize]
  rfl

namespace Client

variable {c c' c₀ : Client} {id : OperationId} {key : Nat} {page? : Option Nat}
  {submitted : Except BindFault Request} {request : Request} {tracing : Bool} {goal : Goal}
  {why : Rejection} {fault : CallFault}

/-- What an operation submits at its turn: the request of a statement, whose values may be refused,
or that of a page of a result. -/
inductive Submits (c : Client) (id : OperationId) : Option Nat → Except BindFault Request → Prop
  | query {cql : String} {values : List (Bound Value)} {options : Option QueryOptions}
    (fresh : c.operations.lookup id = some (.fresh (.query cql values options))) :
    Submits c id none ((BoundRow.ofValues c.config.registry values).map fun row =>
      PageSource.request ⟨.text cql, row, options.getD c.config.queryOptions⟩ none)
  | execute {p : Prepared} {values : List (Bound Value)} {options : Option QueryOptions}
    (fresh : c.operations.lookup id = some (.fresh (.execute p values options))) :
    Submits c id none ((BoundRow.bind c.config.registry values p.markers.types).map fun row =>
      PageSource.request ⟨.prepared p, row, options.getD c.config.queryOptions⟩ none)
  | prepare {cql : String} (fresh : c.operations.lookup id = some (.fresh (.prepare cql))) :
    Submits c id none (.ok (.prepare cql))
  | page {key : Nat} {request : Request} {tracing : Bool}
    (asks : c.use key (.turn (.operation id) []) = .ask id (request, tracing)) :
    Submits c id (some key) (.ok request)

/-- Why what is submitted is refused, and what the operation is told. Values are looked at first,
the stream is claimed next, and the request is measured last. -/
inductive Rejects (c : Client) : Except BindFault Request → Rejection → CallFault → Prop
  | values {fault : BindFault} : Rejects c (.error fault) .values (.invalid (.values fault))
  | noStream {n : Connection} {request : Request} (connected : c.connection = some n)
    (opened : n.pool.closed = false) (full : ¬ n.pool.HasFree) :
    Rejects c (.ok request) .noStream .noStream
  | length {n : Connection} {request : Request} {size : ValueTooLarge}
    (connected : c.connection = some n) (opened : n.pool.closed = false) (free : n.pool.HasFree)
    (unsized : request.size = .error size) :
    Rejects c (.ok request) .length (.invalid (.tooLarge size))
  | frame {n : Connection} {request : Request} {size : Nat} (connected : c.connection = some n)
    (opened : n.pool.closed = false) (free : n.pool.HasFree) (sized : request.size = .ok size)
    (big : size > maxBodyLength) :
    Rejects c (.ok request) .frame (.invalid (.frameTooBig (Header.size + size)))

theorem Rejects.category (h : c.Rejects submitted why fault) :
    (ExecutionFault.call fault).category ∈ why.categories := by
  cases h with
  | @values fault =>
    cases fault with
    | encode index fault =>
      cases fault with
      | registry => exact .tail _ (.head _)
      | tooLarge => exact .tail _ (.tail _ (.head _))
      | cell fault =>
        cases fault with
        | tooLarge => exact .tail _ (.tail _ (.head _))
        | _ => exact .head _
      | _ => exact .head _
    | _ => exact .head _
  | noStream => exact .head _
  | length => exact .head _
  | frame => exact .head _

/-! ## Refused requests -/

theorem modifyConnection_pool {n : Connection} (hn : c.connection = some n) :
    (c.modifyConnection fun m => { m with pool := n.pool }) = c := by
  unfold modifyConnection
  rw [hn, Option.map_some, ← hn]

/-- A stream that is claimed and given back leaves the client as it was. -/
theorem leaveStream_of_allocate (h : c.Pooled) {n : Connection} (hn : c.connection = some n)
    {stream : Nat} {pool : StreamPool} (hclaimed : n.pool.allocate = (.ok stream, pool)) :
    (c.modifyConnection fun m => { m with pool }).leaveStream stream false = c := by
  have hleft := StreamPool.leave_of_allocate (h.consistent n hn) hclaimed
  unfold leaveStream modifyConnection
  simp only [hn, Option.map_some, hleft]
  rw [← hn]

theorem call_unframed (h : c.Pooled) {n : Connection} (hn : c.connection = some n)
    {stream : Nat} {pool : StreamPool} (hclaimed : n.pool.allocate = (.ok stream, pool))
    {fault : RequestFault} (hunframed : request.frame tracing (Int16.ofNat stream) = .error fault) :
    c.call id request tracing goal = c.fail id goal (.call (.invalid fault)) := by
  unfold call
  simp only [hn, hclaimed, hunframed]
  rw [leaveStream_of_allocate h hn hclaimed]

/-- A request that is refused fails in the state that it was made in. -/
theorem call_rejected (h : c.Pooled) (hrejects : c.Rejects (.ok request) why fault) :
    c.call id request tracing goal = c.fail id goal (.call fault) := by
  cases hrejects with
  | noStream hconnected hopened hfull =>
    have hrefused := StreamPool.allocate_of_full (h.consistent _ hconnected) hopened hfull
    unfold call
    simp only [hconnected, hrefused]
    rw [modifyConnection_pool hconnected]
  | length hconnected hopened hfree hunsized =>
    obtain ⟨stream, pool, hclaimed⟩ :=
      StreamPool.allocate_of_hasFree (h.consistent _ hconnected) hopened hfree
    exact call_unframed h hconnected hclaimed (Request.frame_tooLong tracing _ hunsized)
  | frame hconnected hopened hfree hsized hbig =>
    obtain ⟨stream, pool, hclaimed⟩ :=
      StreamPool.allocate_of_hasFree (h.consistent _ hconnected) hopened hfree
    exact call_unframed h hconnected hclaimed (Request.frame_tooBig tracing _ hsized hbig)

/-- A request is refused, finds the connection closed, or goes on its way. -/
theorem call_outcome (h : c.Pooled) (id : OperationId) (request : Request) (tracing : Bool)
    (goal : Goal) :
    (∃ why fault, c.Rejects (.ok request) why fault) ∨
    c.call id request tracing goal = c.fail id goal (.call .closed) ∨
    ∃ stage : Stage, stage.goal? = some goal ∧
      (c.call id request tracing goal).books = (c.set id stage).books := by
  cases hn : c.connection with
  | none =>
    refine .inr (.inl ?_)
    unfold call
    rw [hn]
  | some n =>
    have hconsistent := h.consistent n hn
    rcases n.pool.allocate_cases with
      ⟨-, hrefused⟩ | ⟨hopened, hnone, -⟩ | ⟨stream, hopened, -, hclaimed⟩
    · refine .inr (.inl ?_)
      unfold call
      simp only [hn, hrefused]
      rw [modifyConnection_pool hn]
    · have hfull := StreamPool.not_hasFree_of_claim? hconsistent hnone
      exact .inl ⟨_, _, .noStream hn hopened hfull⟩
    · have hfree := StreamPool.hasFree_of_allocate hconsistent hclaimed
      cases hsized : request.size with
      | error size => exact .inl ⟨_, _, .length hn hopened hfree hsized⟩
      | ok size =>
        by_cases hbig : size > maxBodyLength
        · exact .inl ⟨_, _, .frame hn hopened hfree hsized hbig⟩
        · have hframed :=
            Request.frame_eq_ok tracing (Int16.ofNat stream) hsized (Nat.le_of_not_lt hbig)
          unfold call
          simp only [hn, hclaimed, hframed]
          split
          · rw [leaveStream_of_allocate h hn hclaimed]
            exact .inr (.inl rfl)
          · split
            · exact .inr (.inr ⟨.waiting stream goal, rfl, books_enqueue ..⟩)
            · exact .inr (.inr ⟨.queued stream _ goal, rfl, rfl⟩)

/-! ## Operations that are told of a fault -/

/-- All of a client but its results, its operations and the order of its tasks. -/
def standing (c : Client) : Client :=
  { c with results := [], operations := [], ready := [], finished := [] }

/-- Between the two, an operation has come to an end or gone on, and nothing else has happened. The
result of which it has asked for a page may have passed on to who waits for it. -/
structure NoTrace (id : OperationId) (page? : Option Nat) (c c' : Client) : Prop where
  standing : c'.standing = c.standing
  others : ∀ q, q ≠ id → c'.operations.lookup q = c.operations.lookup q
  results : ∀ k, page? ≠ some k → c'.results.lookup k = c.results.lookup k

theorem NoTrace.connection (h : NoTrace id page? c c') : c'.connection = c.connection := by
  show c'.standing.connection = c.standing.connection
  rw [h.standing]

theorem NoTrace.sent (h : NoTrace id page? c c') : c'.sent = c.sent := by
  show c'.standing.sent = c.standing.sent
  rw [h.standing]

theorem NoTrace.keyspace (h : NoTrace id page? c c') : c'.keyspace = c.keyspace := by
  show c'.standing.keyspace = c.standing.keyspace
  rw [h.standing]

theorem noTrace_ready (ready : List Task) : NoTrace id page? c { c with ready } :=
  ⟨rfl, fun _ _ => rfl, fun _ _ => rfl⟩

theorem NoTrace.trans (h : NoTrace id page? c c₀) (h' : NoTrace id page? c₀ c') :
    NoTrace id page? c c' := by
  refine ⟨h'.standing.trans h.standing, fun q hq => ?_, fun k hk => ?_⟩
  · rw [h'.others q hq, h.others q hq]
  · rw [h'.results k hk, h.results k hk]

/-- Between the two, an operation has ended with a fault, or keeps it among the items it takes. -/
def Told (c : Client) (id : OperationId) (fault : ExecutionFault) (c' : Client) : Prop :=
  (c'.operations.lookup id = none ∧ c'.finished = (id, .failed fault) :: c.finished) ∨
  ∃ key taken, c'.operations.lookup id = some (.taking key (.items (.error fault :: taken))) ∧
    c'.finished = c.finished

theorem Told.of_finished {fault : ExecutionFault} (h : c₀.Told id fault c')
    (hsame : c₀.finished = c.finished) : c.Told id fault c' := by
  unfold Told at h ⊢
  rwa [hsame] at h

theorem Told.unique {fault fault' : ExecutionFault} (h : c.Told id fault c')
    (h' : c.Told id fault' c') : fault = fault' := by
  rcases h with ⟨hgone, hended⟩ | ⟨key, taken, hstage, -⟩ <;>
    rcases h' with ⟨hgone', hended'⟩ | ⟨key', taken', hstage', -⟩
  · cases hended.symm.trans hended'
    rfl
  · cases hgone.symm.trans hstage'
  · cases hgone'.symm.trans hstage
  · cases hstage.symm.trans hstage'
    rfl

/-- Who waits for an answer, or for room in the queue, was told of nothing. -/
theorem not_told_of_goal {fault : ExecutionFault} {stage : Stage}
    (hbooks : c'.books = (c.set id stage).books) (hasked : stage.goal? = some goal) :
    ¬ c.Told id fault c' := by
  have hlookup : c'.operations.lookup id = some stage := by
    rw [operations_of_books hbooks, lookup_set, if_pos (beq_self_eq_true id)]
  rintro (⟨hgone, -⟩ | ⟨key, taken, htaking, -⟩)
  · cases hgone.symm.trans hlookup
  · cases htaking.symm.trans hlookup
    cases hasked

theorem lookup_finish (outcome : Outcome) (q : OperationId) :
    (c.finish id outcome).operations.lookup q =
      if q == id then none else c.operations.lookup q := by
  have hoperations : (c.finish id outcome).operations = removeEntry c.operations id := by
    cases outcome <;> rfl
  rw [hoperations, lookup_removeEntry]

theorem told_failed (fault : ExecutionFault) : c.Told id fault (c.finish id (.failed fault)) := by
  refine .inl ⟨?_, rfl⟩
  rw [lookup_finish, if_pos (beq_self_eq_true id)]

theorem noTrace_failed (fault : ExecutionFault) (page? : Option Nat) :
    NoTrace id page? c (c.finish id (.failed fault)) :=
  ⟨rfl, (leaves_finish _).others, fun _ _ => rfl⟩

theorem told_deliver (consumer : Consumer) (fault : ExecutionFault) :
    c.Told id fault (c.deliver id key consumer (some (.error fault))) := by
  cases consumer with
  | items taken =>
    refine .inr ⟨key, taken, ?_, rfl⟩
    show (c.set id _).operations.lookup id = _
    rw [lookup_set, if_pos (beq_self_eq_true id)]
  | _ => exact told_failed fault

theorem noTrace_deliver (consumer : Consumer) (fault : ExecutionFault) :
    NoTrace id (some key) c (c.deliver id key consumer (some (.error fault))) := by
  refine ⟨?_, (leaves_deliver ..).others, fun k _ => ?_⟩
  all_goals cases consumer <;> rfl

theorem noTrace_modifyResult (f : SharedResult → SharedResult) :
    NoTrace id (some key) c (c.modifyResult key f) := by
  refine ⟨rfl, fun _ _ => rfl, fun k hother => ?_⟩
  have hk : k ≠ key := fun hsame => hother (congrArg some hsame.symm)
  simp [lookup_modifyResult, hk]

theorem holder_unlock (shared : SharedResult) : shared.unlock.holder = shared.waiting.head? := by
  rw [SharedResult.unlock]
  cases shared.waiting <;> rfl

theorem noTrace_unlock : NoTrace id (some key) c (c.unlock key) := by
  have hmodified : NoTrace id (some key) c (c.modifyResult key SharedResult.unlock) :=
    noTrace_modifyResult _
  unfold unlock
  obtain ⟨ready, hwoken, -⟩ := (c.modifyResult key SharedResult.unlock).wakeAll_eq
    (((c.results.lookup key).map (·.waiting.take 1)).getD [])
  rw [hwoken]
  exact ⟨hmodified.standing, hmodified.others, hmodified.results⟩

/-! ## Turns -/

/-- What a request is for that an operation submits. -/
inductive IsFor : Option Nat → Goal → Prop
  | result {source : PageSource} : IsFor none (.result source)
  | prepare {cql : String} : IsFor none (.prepare cql)
  | page {key : Nat} {consumer : Consumer} : IsFor (some key) (.page key consumer)

theorem told_fail (hisFor : IsFor page? goal) (fault : ExecutionFault) :
    c.Told id fault (c.fail id goal fault) := by
  cases hisFor with
  | result => exact told_failed fault
  | prepare => exact told_failed fault
  | @page key consumer =>
    have hunlocked : (c.unlock key).finished = c.finished :=
      (finished_of_books (books_unlock key)).trans rfl
    exact (told_deliver consumer fault).of_finished hunlocked

theorem noTrace_fail (hisFor : IsFor page? goal) (fault : ExecutionFault) :
    NoTrace id page? c (c.fail id goal fault) := by
  cases hisFor with
  | result => exact noTrace_failed fault _
  | prepare => exact noTrace_failed fault _
  | page => exact noTrace_unlock.trans (noTrace_deliver _ fault)

theorem happen_fresh {operation : Operation}
    (hfresh : c.operations.lookup id = some (.fresh operation)) (ready : List Task) :
    c.happen (.turn (.operation id) ready) = ({ c with ready } : Client).start id operation := by
  have hfresh' : ({ c with ready } : Client).operations.lookup id = _ := hfresh
  rw [happen, turn, operationTurn, hfresh']

theorem serve_of_asks {shared : SharedResult} {consumer : Consumer} {result : ResultSet}
    (hkey : c.results.lookup key = some shared)
    (hasks : shared.result.serve c.config.registry consumer.want =
      (.inr (request, tracing), result)) :
    c.serve id key consumer =
      (c.modifyResult key fun shared => { shared with result }).call id request tracing
        (.page key consumer) := by
  rw [serve, hkey]
  simp only [hasks]

/-- Pages are asked for only of results that there are. -/
theorem exists_of_asks {e : Event} (hasks : c.use key e = .ask id (request, tracing)) :
    ∃ shared, c.results.lookup key = some shared := by
  cases hkey : c.results.lookup key with
  | none =>
    rw [use, hkey] at hasks
    cases hasks
  | some shared => exact ⟨shared, rfl⟩

/-- The turn of an operation that asks for a page. -/
theorem happen_asks (ready : List Task)
    (hasks : c.use key (.turn (.operation id) ready) = .ask id (request, tracing)) :
    ∃ c₁ consumer shared shared₁, NoTrace id (some key) c c₁ ∧ c₁.finished = c.finished ∧
      c.results.lookup key = some shared ∧ c₁.results.lookup key = some shared₁ ∧
      shared₁.waiting = shared.waiting ∧
      c.happen (.turn (.operation id) ready) =
        c₁.call id request tracing (.page key consumer) := by
  obtain ⟨shared, hkey⟩ := exists_of_asks hasks
  have hfound := use_found hkey (.turn (.operation id) ready)
  rw [hasks] at hfound
  cases hfound with
  | @ask _ consumer _ _ hserved hserve =>
    obtain ⟨lock, hsame, hwaiting, hturned⟩ := hserved
    obtain ⟨result, hserve⟩ : ∃ result, shared.result.serve c.config.registry consumer.want =
      (.inr (request, tracing), result) := ⟨_, Prod.ext hserve rfl⟩
    let c₀ : Client := { c with ready }
    have hkey₀ : (c₀.modifyResult key lock).results.lookup key = some (lock shared) :=
      lookup_modifyResult_self hkey lock
    refine ⟨(c₀.modifyResult key lock).modifyResult key fun shared => { shared with result },
      consumer, shared, _, ?_, rfl, hkey, lookup_modifyResult_self hkey₀ _, hwaiting, ?_⟩
    · exact ((noTrace_ready ready).trans (noTrace_modifyResult lock)).trans
        (noTrace_modifyResult _)
    · rw [happen, turn, hturned]
      refine serve_of_asks hkey₀ ?_
      rw [hsame]
      exact hserve

section Statements

variable {statement : Statement} {values : Except BindFault BoundRow}
  {options : Option QueryOptions}

theorem startStatement_sent (id : OperationId)
    (hsent : (values.map fun row =>
      PageSource.request ⟨statement, row, options.getD c.config.queryOptions⟩ none) = .ok request) :
    ∃ source : PageSource, c.startStatement id statement values options =
      c.call id request source.options.tracing (.result source) := by
  cases values with
  | error fault => cases hsent
  | ok row =>
    cases hsent
    exact ⟨_, rfl⟩

theorem startStatement_refused {fault : BindFault}
    (hrefused : (values.map fun row =>
      PageSource.request ⟨statement, row, options.getD c.config.queryOptions⟩ none) =
        .error fault) :
    c.startStatement id statement values options =
      c.finish id (.failed (.call (.invalid (.values fault)))) := by
  cases values with
  | error fault =>
    cases hrefused
    rfl
  | ok row => cases hrefused

end Statements

/-- An operation that submits a request makes it at its turn. -/
theorem happen_submits (hsubmits : c.Submits id page? submitted) (hsent : submitted = .ok request)
    (ready : List Task) :
    ∃ c₁ tracing goal, NoTrace id page? c c₁ ∧ c₁.finished = c.finished ∧ IsFor page? goal ∧
      c.happen (.turn (.operation id) ready) = c₁.call id request tracing goal := by
  have hbegun : NoTrace id none c { c with ready } := noTrace_ready ready
  cases hsubmits with
  | query hfresh =>
    obtain ⟨source, hstarted⟩ := startStatement_sent (c := { c with ready }) id hsent
    exact ⟨_, _, _, hbegun, rfl, .result, (happen_fresh hfresh ready).trans hstarted⟩
  | execute hfresh =>
    obtain ⟨source, hstarted⟩ := startStatement_sent (c := { c with ready }) id hsent
    exact ⟨_, _, _, hbegun, rfl, .result, (happen_fresh hfresh ready).trans hstarted⟩
  | prepare hfresh =>
    cases hsent
    exact ⟨_, _, _, hbegun, rfl, .prepare, happen_fresh hfresh ready⟩
  | page hasks =>
    cases hsent
    obtain ⟨c₁, consumer, _, _, hnoTrace, hfinished, -, -, -, hturned⟩ := happen_asks ready hasks
    exact ⟨c₁, _, _, hnoTrace, hfinished, .page, hturned⟩

/-- An operation whose values are refused ends at its turn. -/
theorem happen_refused {fault : BindFault} (hsubmits : c.Submits id page? submitted)
    (hrefused : submitted = .error fault) (ready : List Task) :
    c.happen (.turn (.operation id) ready) =
      ({ c with ready } : Client).finish id (.failed (.call (.invalid (.values fault)))) := by
  cases hsubmits with
  | query hfresh =>
    exact (happen_fresh hfresh ready).trans
      (startStatement_refused (c := { c with ready }) hrefused)
  | execute hfresh =>
    exact (happen_fresh hfresh ready).trans
      (startStatement_refused (c := { c with ready }) hrefused)
  | prepare => cases hrefused
  | page => cases hrefused

/-! ## Rejection -/

theorem Rejects.of_connection (h : c.Rejects submitted why fault)
    (hsame : c'.connection = c.connection) : c'.Rejects submitted why fault := by
  cases h with
  | values => exact .values
  | noStream hconnected hopened hfull => exact .noStream (hsame.trans hconnected) hopened hfull
  | length hconnected hopened hfree hunsized =>
    exact .length (hsame.trans hconnected) hopened hfree hunsized
  | frame hconnected hopened hfree hsized hbig =>
    exact .frame (hsame.trans hconnected) hopened hfree hsized hbig

theorem noTrace_of_rejects (h : c.Pooled) (hsubmits : c.Submits id page? submitted)
    (hrejects : c.Rejects submitted why fault) (ready : List Task) :
    NoTrace id page? c (c.happen (.turn (.operation id) ready)) ∧
      c.Told id (.call fault) (c.happen (.turn (.operation id) ready)) := by
  cases hsent : submitted with
  | error refused =>
    rw [happen_refused hsubmits hsent ready]
    rw [hsent] at hrejects
    cases hrejects
    exact ⟨(noTrace_ready ready).trans (noTrace_failed _ _), (told_failed _).of_finished rfl⟩
  | ok request =>
    obtain ⟨c₁, tracing, goal, hbegun, hfinished, hisFor, hturned⟩ :=
      happen_submits hsubmits hsent ready
    rw [hsent] at hrejects
    rw [hturned, call_rejected (h.of_connection hbegun.connection)
      (hrejects.of_connection hbegun.connection)]
    exact ⟨hbegun.trans (noTrace_fail hisFor _), (told_fail hisFor _).of_finished hfinished⟩

/-- An operation that is told of a fault at once was rejected, or found the connection closed. -/
theorem rejects_of_told (h : c.Pooled) (hsubmits : c.Submits id page? submitted) {ready : List Task}
    {fault : ExecutionFault} (htold : c.Told id fault (c.happen (.turn (.operation id) ready))) :
    fault = .call .closed ∨ ∃ why f, fault = .call f ∧ c.Rejects submitted why f := by
  have hrejected {why : Rejection} {f : CallFault} (hrejects : c.Rejects submitted why f) :
      fault = .call .closed ∨ ∃ why f, fault = .call f ∧ c.Rejects submitted why f :=
    .inr ⟨why, f, htold.unique (noTrace_of_rejects h hsubmits hrejects ready).2, hrejects⟩
  cases hsent : submitted with
  | error refused =>
    rw [hsent] at hrejected
    exact hrejected .values
  | ok request =>
    obtain ⟨c₁, tracing, goal, hbegun, hfinished, hisFor, hturned⟩ :=
      happen_submits hsubmits hsent ready
    have htold₁ : c₁.Told id fault (c.happen (.turn (.operation id) ready)) :=
      htold.of_finished hfinished.symm
    rw [hturned] at htold₁
    rcases call_outcome (h.of_connection hbegun.connection) id request tracing goal with
      ⟨why, f, hrejects⟩ | hclosed | ⟨stage, hasked, hbooks⟩
    · rw [hsent] at hrejected
      exact hrejected (hrejects.of_connection hbegun.connection.symm)
    · rw [hclosed] at htold₁
      exact .inl (htold₁.unique (told_fail hisFor _))
    · exact absurd htold₁ (not_told_of_goal hbooks hasked)

/-- A page that was asked for in vain can be asked for again, next by whoever has waited longest for
the cursor of the result. -/
theorem passedOn_of_rejects (h : c.Pooled) (hheld : c.CursorsHeld)
    (hsubmits : c.Submits id (some key) submitted) (hrejects : c.Rejects submitted why fault)
    (ready : List Task) :
    ∃ shared shared', c.results.lookup key = some shared ∧
      (c.happen (.turn (.operation id) ready)).results.lookup key = some shared' ∧
      ResultSet.SameRest c.config.registry shared.result shared'.result ∧
      shared'.holder = shared.waiting.head? := by
  cases hsubmits with
  | page hasks =>
    have hasks : c.use key (.turn (.operation id) ready) = _ := hasks
    obtain ⟨c₁, consumer, shared, shared₁, hbegun, -, hkey, hkey₁, hwaiting, hturned⟩ :=
      happen_asks ready hasks
    rcases sameRest_of_fetch hheld hkey (.inr ⟨id, _, hasks⟩) with
      ⟨_, _, hreceives, -⟩ | ⟨shared', hkey', hsame⟩
    · cases hasks.symm.trans hreceives
    · refine ⟨shared, shared', hkey, hkey', hsame, ?_⟩
      have hpassed : ActsOn id key shared₁.unlock c₁
          (c₁.fail id (.page key consumer) (.call fault)) :=
        (fail_page_leaves key consumer _).actsOn_unlock hkey₁
      rw [hturned, call_rejected (h.of_connection hbegun.connection)
        (hrejects.of_connection hbegun.connection)] at hkey'
      cases hkey'.symm.trans hpassed.here
      rw [holder_unlock, hwaiting]

/-- In every state that a session can come to: an operation whose request is refused for its values,
for a length, for the size of its frame or for want of a stream is told so at its turn. The queue,
the stream ids with all that has come on them, the bytes that come and go, the keyspace and every
other operation are as before, and so is what is left of the result of which it has asked for a
page, whose cursor is passed on. Callers may sort what they are told by the reason; and for no other
reason is an operation told of a fault at once, unless the connection is closed. -/
theorem rejected_without_trace (config : SessionConfig) (opener : OperationId)
    (events : List Event) (hc : c = (opening config opener).after events)
    (hsubmits : c.Submits id page? submitted) (ready : List Task) :
    let c' := c.happen (.turn (.operation id) ready)
    (∀ why fault, c.Rejects submitted why fault →
      (c'.connection = c.connection ∧ c'.sent = c.sent ∧ c'.keyspace = c.keyspace ∧
        NoTrace id page? c c') ∧
      (∀ key, page? = some key → ∃ shared shared', c.results.lookup key = some shared ∧
        c'.results.lookup key = some shared' ∧
        ResultSet.SameRest c.config.registry shared.result shared'.result ∧
        shared'.holder = shared.waiting.head?) ∧
      c.Told id (.call fault) c' ∧ (ExecutionFault.call fault).category ∈ why.categories) ∧
    ∀ fault, c.Told id fault c' →
      fault = .call .closed ∨ ∃ why f, fault = .call f ∧ c.Rejects submitted why f := by
  have hpooled : c.Pooled := hc ▸ pooled_after config opener events
  have hheld : c.CursorsHeld := hc ▸ (cursorsHeld_opening config opener).after events
  intro c'
  refine ⟨fun why fault hrejects => ?rejected,
    fun fault htold => rejects_of_told hpooled hsubmits htold⟩
  obtain ⟨hnoTrace, htold⟩ := noTrace_of_rejects hpooled hsubmits hrejects ready
  refine ⟨⟨hnoTrace.connection, hnoTrace.sent, hnoTrace.keyspace, hnoTrace⟩, ?page, htold,
    hrejects.category⟩
  rintro key rfl
  exact passedOn_of_rejects hpooled hheld hsubmits hrejects ready

/-- A session whose only stream waits for the answer to another request. -/
def busyEvents : List Event :=
  [.turn (.operation "s") [], .receive [0x84, 0, 0, 0, 6, 0, 0, 0, 2, 0, 0],
    .turn (.operation "s") [], .turn (.operation "s") [],
    .receive [0x84, 0, 0, 0, 2, 0, 0, 0, 0], .turn (.operation "s") [],
    .call "a" (.prepare "SELECT n FROM item"), .turn (.operation "a") [],
    .call "b" (.prepare "SELECT m FROM item")]

theorem rejected_without_trace_noStream :
    let c := (opening { connection := { maxStreams := 1 } } "s").after busyEvents
    let c' := c.happen (.turn (.operation "b") [])
    c.isOpen = true ∧ c'.connection = c.connection ∧ c'.finished.length = 2 ∧
      NoTrace "b" none c c' ∧ c.Told "b" (.call .noStream) c' := by
  intro c c'
  have hsubmits : c.Submits "b" none (.ok (.prepare "SELECT m FROM item")) := .prepare rfl
  have hfull : ∀ n, c.connection = some n → ¬ n.pool.HasFree := by
    rintro n hn ⟨id, hsmall, hslot⟩
    cases hn
    obtain rfl := Nat.lt_one_iff.mp hsmall
    cases hslot
  have hrejects : c.Rejects (.ok (.prepare "SELECT m FROM item")) .noStream .noStream :=
    .noStream rfl rfl (hfull _ rfl)
  obtain ⟨hrejected, -⟩ := rejected_without_trace _ "s" busyEvents rfl hsubmits []
  obtain ⟨⟨hconnection, -, -, hnoTrace⟩, -, htold, -⟩ := hrejected _ _ hrejects
  exact ⟨rfl, hconnection, rfl, hnoTrace, htold⟩

end Client

end CqlClient
