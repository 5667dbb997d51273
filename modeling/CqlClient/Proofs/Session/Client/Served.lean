import CqlClient.Proofs.Session.Client.Events

/-!
# What operations get of a result

What `Client.use` says of an event is what the caller sees of it. An operation that has the cursor
of a result at its turn is served, wherever it stands; an operation that waits for a page is given
the page, if it comes.

* `Client.Found`, `Client.use_found`: in which states an event does what with a result;
* `Client.handsOver`: what is handed out reaches the operation, or the caller, that wants it;
* `Client.pageComes_of_use`: a page is taken in only when rows have come that can be read.
-/

namespace CqlClient

/-- What an operation ends with when nothing is left of its result. -/
def Consumer.ending : Consumer → Outcome
  | row => .row none
  | rows taken => .rows taken.reverse
  | items taken => .items taken.reverse
  | page => .page false
  | pagingState => .pagingState none

/-- How an operation goes on that has got something of a result, or what it ends with. -/
def Consumer.given (key : Nat) : Consumer → Service → Stage ⊕ Outcome
  | items taken, .row (some item) => .inl (.taking key (.items (item :: taken)))
  | items taken, .row none => .inr (.items taken.reverse)
  | rows taken, .row (some (.ok got)) => .inl (.taking key (.rows (got :: taken)))
  | rows taken, .row none => .inr (.rows taken.reverse)
  | _, .row (some (.error fault)) => .inr (.failed fault)
  | _, .row (some (.ok got)) => .inr (.row (some got))
  | _, .row none => .inr (.row none)
  | _, .page fetched => .inr (.page fetched)
  | _, .pagingState state => .inr (.pagingState state)

theorem Consumer.given_page (key : Nat) (consumer : Consumer) (fetched : Bool) :
    consumer.given key (.page fetched) = .inr (.page fetched) := by
  cases consumer <;> rfl

theorem Consumer.given_pagingState (key : Nat) (consumer : Consumer) (state : Option Bytes) :
    consumer.given key (.pagingState state) = .inr (.pagingState state) := by
  cases consumer <;> rfl

theorem Consumer.given_ending (key : Nat) (consumer : Consumer) :
    consumer.given key consumer.want.ending = .inr consumer.ending := by
  cases consumer <;> rfl

namespace Client

variable {c c' c₀ : Client} {id : OperationId} {key : Nat} {shared : SharedResult}
  {consumer : Consumer} {service : Service} {stage : Stage} {s : ResultSet}

/-- Between the two, an operation has come to a stage, or has ended. -/
def Comes (c : Client) (id : OperationId) (c' : Client) : Stage ⊕ Outcome → Prop
  | .inl stage => c'.operations.lookup id = some stage
  | .inr outcome => c'.finished = (id, outcome) :: c.finished

theorem finish_comes (outcome : Outcome) : c.Comes id (c.finish id outcome) (.inr outcome) := by
  cases outcome <;> rfl

theorem proceed_comes (stage : Stage) : c.Comes id (c.proceed id stage) (.inl stage) := by
  show (c.set id stage).operations.lookup id = some stage
  rw [lookup_set, if_pos (beq_self_eq_true id)]

theorem Comes.of_finished {end? : Stage ⊕ Outcome} (h : c₀.Comes id c' end?)
    (hfinished : c₀.finished = c.finished) : c.Comes id c' end? := by
  cases end? with
  | inl stage => exact h
  | inr outcome => exact h.trans (by rw [hfinished])

theorem deliver_comes (item : Option (Except ExecutionFault Row)) :
    c.Comes id (c.deliver id key consumer item) (consumer.given key (.row item)) := by
  unfold deliver
  split
  · exact proceed_comes _
  · exact finish_comes _
  · exact proceed_comes _
  · exact finish_comes _
  next fault hitems =>
    cases consumer with
    | items taken => exact absurd rfl (hitems taken)
    | _ => exact finish_comes _
  next row hitems hrows =>
    cases consumer with
    | items taken => exact absurd rfl (hitems taken)
    | rows taken => exact absurd rfl (hrows taken)
    | _ => exact finish_comes _
  next hitems hrows =>
    cases consumer with
    | items taken => exact absurd rfl (hitems taken)
    | rows taken => exact absurd rfl (hrows taken)
    | _ => exact finish_comes _

/-- Who is served goes on with what there is, or ends. -/
theorem serve_comes (hkey : c.results.lookup key = some shared)
    (hserve : (shared.result.serve c.config.registry consumer.want).1 = .inl service) :
    c.Comes id (c.serve id key consumer) (consumer.given key service) := by
  have hunlocked (result : ResultSet) :
      ((c.modifyResult key fun shared => { shared with result }).unlock key).finished =
        c.finished := (finished_of_books (books_unlock key)).trans rfl
  rw [serve, hkey]
  simp only
  rw [hserve]
  cases service with
  | row item => exact (deliver_comes item).of_finished (hunlocked _)
  | page fetched =>
    rw [Consumer.given_page]
    exact (finish_comes (.page fetched)).of_finished (hunlocked _)
  | pagingState state =>
    rw [Consumer.given_pagingState]
    exact (finish_comes (.pagingState state)).of_finished (hunlocked _)

/-! ## All that is done with a result -/

/-- The turn of an operation is to be served, once it has the cursor. -/
def IsServed (c : Client) (id : OperationId) (key : Nat) (shared : SharedResult)
    (consumer : Consumer) : Prop :=
  ∃ lock : SharedResult → SharedResult, (lock shared).result = shared.result ∧
    (lock shared).waiting = shared.waiting ∧
    c.operationTurn id = (c.modifyResult key lock).serve id key consumer

/-- The answer for which an operation waits is there, and is a page: rows that can be read. -/
def PageComes (c : Client) (key : Nat) (s : ResultSet) (id : OperationId) (rows : Rows)
    (e : Event) : Prop :=
  ∃ stream consumer ready response, e = .turn (.operation id) ready ∧
    c.operations.lookup id = some (.waiting stream (.page key consumer)) ∧
    c.answer? stream = some (.ok response) ∧ response.body = .result (.rows rows) ∧
    (Page.ofRows rows s.fallback).isOk = true

/-- What an event does with a result, and where it finds the one who does it. -/
inductive Found (c : Client) (key : Nat) (shared : SharedResult) : Event → Use → Prop
  | nothing {e : Event} : Found c key shared e .nothing
  | serve {id : OperationId} {consumer : Consumer} {ready : List Task} {service : Service} :
      ({ c with ready } : Client).IsServed id key shared consumer →
      (shared.result.serve c.config.registry consumer.want).1 = .inl service →
      Found c key shared (.turn (.operation id) ready) (.serve id consumer service)
  | ask {id : OperationId} {consumer : Consumer} {ready : List Task}
      {request : Request × Bool} :
      ({ c with ready } : Client).IsServed id key shared consumer →
      (shared.result.serve c.config.registry consumer.want).1 = .inr request →
      Found c key shared (.turn (.operation id) ready) (.ask id request)
  | receive {id : OperationId} {rows : Rows} {e : Event} :
      c.PageComes key shared.result id rows e → Found c key shared e (.receive id rows)
  | tryTake {label : OperationId} : c.held.lookup label = some key → shared.holder = none →
      Found c key shared (.tryTake label)
        (.tryTake (shared.result.tryTake c.config.registry).1)

variable {ready : List Task}

theorem modifyResult_self : (c.modifyResult key fun shared => shared) = c := by
  unfold modifyResult
  simp

theorem IsServed.found (h : ({ c with ready } : Client).IsServed id key shared consumer) :
    c.Found key shared (.turn (.operation id) ready)
      (serveUse c.config.registry id consumer shared.result) := by
  unfold serveUse
  split
  next hserve => exact .serve h hserve
  next hask => exact .ask h hask

theorem take_isServed (hkey : c.results.lookup key = some shared)
    (hturn : c.operationTurn id = c.take id key consumer) (hholder : shared.holder = none)
    (hleft : ¬ (consumer.want = .row ∧ shared.result.exhausted = true)) :
    c.IsServed id key shared consumer := by
  have hwaiting : (shared.lock id).waiting = shared.waiting := by rw [SharedResult.lock, hholder]
  refine ⟨(·.lock id), Paging.lock_result .., hwaiting, ?_⟩
  rw [hturn, take_eq hkey, if_neg hleft, lock, hkey, Option.bind_some, hholder]

theorem pageUse_found {stream : Nat}
    (hstage : c.operations.lookup id = some (.waiting stream (.page key consumer))) :
    c.Found key shared (.turn (.operation id) ready)
      (c.pageUse id stream consumer shared.result) := by
  unfold pageUse
  split
  next response hanswer =>
    split
    next received rows hreceive hbody =>
      refine .receive ⟨stream, consumer, ready, response, rfl, hstage, hanswer, hbody, ?_⟩
      unfold ResultSet.receive at hreceive
      obtain ⟨added, hadd, _⟩ := bind_eq_ok.mp hreceive
      obtain ⟨rows', page, hbody', hpage, _⟩ := ResultSet.addPage_ok hadd
      cases hbody.symm.trans hbody'
      rw [hpage]
      rfl
    · exact .nothing
  · exact .nothing

theorem stageUse_found (hkey : c.results.lookup key = some shared)
    (hstage : c.operations.lookup id = some stage) :
    c.Found key shared (.turn (.operation id) ready) (c.stageUse id key shared stage) := by
  have hserved (consumer : Consumer)
      (hturn : ({ c with ready } : Client).operationTurn id =
        ({ c with ready } : Client).serve id key consumer) :
      ({ c with ready } : Client).IsServed id key shared consumer := by
    refine ⟨fun shared => shared, rfl, rfl, ?_⟩
    rw [modifyResult_self]
    exact hturn
  have hstage' : ({ c with ready } : Client).operations.lookup id = some stage := hstage
  unfold stageUse
  split
  next k consumer =>
    split
    next htaken =>
      obtain ⟨rfl, hholder, hleft⟩ := htaken
      refine IsServed.found (take_isServed (c := { c with ready }) hkey ?_ hholder hleft)
      rw [operationTurn, hstage']
      rfl
    · exact .nothing
  next k consumer =>
    split
    next htaken =>
      obtain ⟨rfl, hholder, hleft⟩ := htaken
      refine IsServed.found (take_isServed (c := { c with ready }) hkey ?_ hholder hleft)
      rw [operationTurn, hstage']
    · exact .nothing
  next k consumer =>
    split
    next hlocked =>
      obtain ⟨rfl, hholder⟩ := hlocked
      refine IsServed.found (hserved consumer ?_)
      rw [operationTurn, hstage']
      refine if_pos ?_
      show (c.results.lookup k).bind (·.holder) = some id
      rw [hkey, Option.bind_some, hholder]
    · exact .nothing
  next k consumer =>
    split
    next hk =>
      subst hk
      refine IsServed.found (hserved consumer ?_)
      rw [operationTurn, hstage']
    · exact .nothing
  next stream k consumer =>
    split
    next hk =>
      subst hk
      exact pageUse_found hstage
    · exact .nothing
  · exact .nothing

theorem use_found (hkey : c.results.lookup key = some shared) (e : Event) :
    c.Found key shared e (c.use key e) := by
  unfold use
  rw [hkey]
  simp only
  unfold eventUse
  split
  next id ready =>
    split
    next stage hstage => exact stageUse_found hkey hstage
    · exact .nothing
  next label =>
    split
    next htaken => exact .tryTake htaken.1 htaken.2
    · exact .nothing
  · exact .nothing

/-- A page is taken in only when it comes. -/
theorem pageComes_of_use {e : Event} {rows : Rows} (hkey : c.results.lookup key = some shared)
    (huse : c.use key e = .receive id rows) : c.PageComes key shared.result id rows e := by
  have hfound := use_found hkey e
  rw [huse] at hfound
  cases hfound with
  | receive hcomes => exact hcomes

theorem PageComes.fetches {e : Event} {rows : Rows} (h : c.PageComes key s id rows e) :
    c.Fetches id key := by
  obtain ⟨stream, consumer, _, _, _, hstage, _⟩ := h
  exact ⟨_, hstage, rfl⟩

/-- An operation that is served goes on with what is handed out, or ends. -/
theorem comes_of_use {e : Event} (hkey : c.results.lookup key = some shared)
    (huse : c.use key e = .serve id consumer service) :
    c.Comes id (c.happen e) (consumer.given key service) := by
  have hfound := use_found hkey e
  rw [huse] at hfound
  cases hfound with
  | @serve _ _ ready _ hserved hserve =>
    obtain ⟨lock, hresult, -, hturn⟩ := hserved
    have hkey₀ : (({ c with ready } : Client).modifyResult key lock).results.lookup key =
      some (lock shared) := lookup_modifyResult_self hkey lock
    rw [happen, turn, hturn]
    refine (serve_comes hkey₀ ?_).of_finished rfl
    rw [hresult]
    exact hserve

theorem tryTake?_eq {label : OperationId} (hlabel : c.held.lookup label = some key)
    (hkey : c.results.lookup key = some shared) :
    c.tryTake? label = .ok ((shared.tryTake c.config.registry).1.elim (.ok none) (·.map some),
      c.happen (.tryTake label)) := by
  rw [happen_tryTake hlabel, tryTake_eq hkey, tryTake?, heldResult, hlabel]
  simp only [Except.map, tryTake, hkey]
  cases (shared.tryTake c.config.registry).1 with
  | none => rfl
  | some item => cases item <;> rfl

/-- A caller that tries for a row gets what is handed out. -/
theorem tryTake?_of_use {e : Event} {item : Option (Except ExecutionFault Row)}
    (hkey : c.results.lookup key = some shared) (huse : c.use key e = .tryTake item) :
    ∃ label, e = .tryTake label ∧
      c.tryTake? label = .ok (item.elim (.ok none) (·.map some), c.happen e) := by
  have hfound := use_found hkey e
  rw [huse] at hfound
  cases hfound with
  | @tryTake label hlabel hholder =>
    refine ⟨label, rfl, ?_⟩
    rw [tryTake?_eq hlabel hkey, SharedResult.tryTake, hholder]
    rfl

/-- What is handed out reaches the operation that is served, or the caller that tries for a row. -/
structure HandsOver (c : Client) (key : Nat) (e : Event) : Prop where
  served : ∀ id consumer service, c.use key e = .serve id consumer service →
    c.Comes id (c.happen e) (consumer.given key service)
  tried : ∀ item, c.use key e = .tryTake item → ∃ label, e = .tryTake label ∧
    c.tryTake? label = .ok (item.elim (.ok none) (·.map some), c.happen e)

theorem handsOver (hkey : c.results.lookup key = some shared) (e : Event) : c.HandsOver key e :=
  ⟨fun _ _ _ => comes_of_use hkey, fun _ => tryTake?_of_use hkey⟩

end Client

end CqlClient
