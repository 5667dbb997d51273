import CqlClient.Proofs.Session.Client.Frame
import CqlClient.Session.Script

/-!
# The cursors of a client

`Client.Event` is all that may happen to a client, in any order: tasks take turns, callers start
operations and give them up, bytes come, the other side ends what it sends or takes nothing any
more. `Client.CursorsHeld` says that whoever waits for a page, or is to look at one, is the holder
of the cursor.

* `Client.CursorsHeld.actsOn`, `Client.CursorsHeld.leaves`: what keeps it so;
* `Client.after_run`, `Client.after_perform`: turns and scripts are made of events.
-/

namespace CqlClient

namespace Client

/-- What may happen to a client. -/
inductive Event where
  /-- A task takes its turn, whichever of those that are to take one. -/
  | turn (task : Task) (ready : List Task)
  | call (id : OperationId) (call : Call)
  | tryTake (label : OperationId)
  | cancel (id : OperationId)
  | forget (label : OperationId)
  | dropSession
  | receive (bytes : Bytes)
  | endSending
  | endTaking
  | release
  /-- What was sent and what is over has been looked at. -/
  | clear

def happen (c : Client) : Event → Client
  | .turn task ready => { c with ready }.turn task
  | .call id call =>
    match c.call? id call with
    | .ok c => c
    | .error _ => c
  | .tryTake label =>
    match c.tryTake? label with
    | .ok (_, c) => c
    | .error _ => c
  | .cancel id => c.cancel id
  | .forget label => c.forget label
  | .dropSession => c.dropSession
  | .receive bytes => c.receive bytes
  | .endSending => c.endSending
  | .endTaking => c.endTaking
  | .release =>
    match c.connection with
    | some n => c.release n
    | none => c
  | .clear => c.clear

def after (c : Client) (events : List Event) : Client := events.foldl happen c

variable {c c' c₀ c₁ : Client} {id : OperationId} {key : Nat} {shared shared' : SharedResult}

theorem after_append (events more : List Event) :
    c.after (events ++ more) = (c.after events).after more := List.foldl_append ..

theorem after_run (fuel : Nat) : ∃ events, run fuel c = c.after events := by
  induction fuel generalizing c with
  | zero => exact ⟨[], rfl⟩
  | succ fuel ih =>
    rw [run]
    split
    next task ready _ =>
      obtain ⟨events, hrun⟩ := @ih ({ c with ready }.turn task)
      exact ⟨.turn task ready :: events, hrun⟩
    next =>
      split
      next n hn =>
        split
        · exact ⟨[], rfl⟩
        · obtain ⟨events, hrun⟩ := @ih (c.release n)
          refine ⟨.release :: events, ?_⟩
          rw [hrun, after, after, List.foldl_cons]
          simp only [happen, hn]
      · exact ⟨[], rfl⟩

mutual

theorem after_perform (c : Client) : ∀ step : CqlClient.Step,
    ∃ events, (c.perform step).2 = c.after events
  | .call id call => by
    refine ⟨[.call id call], ?_⟩
    rw [perform, after, List.foldl_cons, happen]
    cases c.call? id call <;> rfl
  | .tryTake label => by
    refine ⟨[.tryTake label], ?_⟩
    rw [perform, after, List.foldl_cons, happen]
    cases c.tryTake? label <;> rfl
  | .cancel id => ⟨[.cancel id], rfl⟩
  | .forget label => ⟨[.forget label], rfl⟩
  | .dropSession => ⟨[.dropSession], rfl⟩
  | .receive bytes => ⟨[.receive bytes], rfl⟩
  | .endPeer => ⟨[.endTaking, .endSending], rfl⟩
  | .batch steps => after_performAll c steps

theorem after_performAll (c : Client) : ∀ steps : List CqlClient.Step,
    ∃ events, perform.performAll c steps = c.after events
  | [] => ⟨[], rfl⟩
  | step :: steps => by
    obtain ⟨events, hstep⟩ := after_perform c step
    obtain ⟨more, hsteps⟩ := after_performAll (c.after events) steps
    refine ⟨events ++ more, ?_⟩
    rw [perform.performAll, hstep, hsteps, after_append]

end

/-! ## The cursor of a result -/

/-- Whoever cannot do without a cursor has it. -/
def CursorsHeld (c : Client) : Prop :=
  ∀ id stage key, c.operations.lookup id = some stage → stage.cursor? = some key →
    ∃ shared, c.results.lookup key = some shared ∧ shared.holder = some id

/-- Between the two, an operation has taken a step on one result, and needs no cursor afterwards
that it does not have. -/
structure ActsOn (id : OperationId) (key : Nat) (shared' : SharedResult) (c c' : Client) :
    Prop where
  config : c'.config = c.config
  others : ∀ q, q ≠ id → c'.operations.lookup q = c.operations.lookup q
  here : c'.results.lookup key = some shared'
  there : ∀ k shared, k ≠ key → c.results.lookup k = some shared →
    c'.results.lookup k = some shared
  cursor : ∀ stage k, c'.operations.lookup id = some stage → stage.cursor? = some k →
    k = key ∧ shared'.holder = some id

theorem CursorsHeld.of_eq (h : c.CursorsHeld) (hoperations : c'.operations = c.operations)
    (hresults : c'.results = c.results) : c'.CursorsHeld := by
  unfold CursorsHeld at h ⊢
  rw [hoperations, hresults]
  exact h

theorem CursorsHeld.of_books (h : c.CursorsHeld) (hbooks : c'.books = c.books) : c'.CursorsHeld :=
  h.of_eq (operations_of_books hbooks) (results_of_books hbooks)

theorem CursorsHeld.leaves (h : c.CursorsHeld) (hleaves : Leaves id c c') : c'.CursorsHeld := by
  intro q stage key hstage hcursor
  by_cases hq : q = id
  · subst hq
    cases (hleaves.free stage hstage).symm.trans hcursor
  · rw [hleaves.others q hq] at hstage
    obtain ⟨shared, hkey, hholder⟩ := h q stage key hstage hcursor
    exact ⟨shared, hleaves.results key shared hkey, hholder⟩

/-- A step on a result keeps cursors with their holders, unless it takes this one from another. -/
theorem CursorsHeld.actsOn (h : c.CursorsHeld) (hkey : c.results.lookup key = some shared)
    (hacts : ActsOn id key shared' c c')
    (hholder : ∀ q, q ≠ id → shared.holder = some q → shared'.holder = some q) :
    c'.CursorsHeld := by
  intro q stage k hstage hcursor
  by_cases hq : q = id
  · subst hq
    obtain ⟨rfl, hq'⟩ := hacts.cursor stage k hstage hcursor
    exact ⟨shared', hacts.here, hq'⟩
  · rw [hacts.others q hq] at hstage
    obtain ⟨shared₀, hk, hq'⟩ := h q stage k hstage hcursor
    by_cases hkk : k = key
    · subst hkk
      cases hkey.symm.trans hk
      exact ⟨shared', hacts.here, hholder q hq hq'⟩
    · exact ⟨shared₀, hacts.there k shared₀ hkk hk, hq'⟩

/-- While an operation has a cursor or nobody has it, no other one needs it. -/
theorem CursorsHeld.eq_of_cursor? (h : c.CursorsHeld) (hkey : c.results.lookup key = some shared)
    (hholder : ∀ q, shared.holder = some q → q = id) {q : OperationId} {stage : Stage}
    (hstage : c.operations.lookup q = some stage) (hcursor : stage.cursor? = some key) :
    q = id := by
  obtain ⟨shared₀, hk, hq⟩ := h q stage key hstage hcursor
  cases hkey.symm.trans hk
  exact hholder q hq

/-! ## Steps on a result -/

theorem lookup_modifyResult (f : SharedResult → SharedResult) (k : Nat) :
    (c.modifyResult key f).results.lookup k =
      (c.results.lookup k).map fun s => if k = key then f s else s :=
  lookup_mapEntries (fun k s => if k = key then f s else s) k

theorem ActsOn.of_modifyResult {f : SharedResult → SharedResult}
    (h : ActsOn id key shared' (c.modifyResult key f) c') : ActsOn id key shared' c c' := by
  refine ⟨h.config, h.others, h.here, fun k shared hk hlookup => ?_, h.cursor⟩
  refine h.there k shared hk ?_
  rw [lookup_modifyResult, hlookup, Option.map_some, if_neg hk]

theorem ActsOn.of_books (h : ActsOn id key shared' c c') (hfrom : c.books = c₀.books)
    (hto : c₁.books = c'.books) : ActsOn id key shared' c₀ c₁ := by
  refine ⟨?_, ?_, ?_, ?_, ?_⟩
  · rw [config_of_books hto, ← config_of_books hfrom]
    exact h.config
  · rw [operations_of_books hto, ← operations_of_books hfrom]
    exact h.others
  · rw [results_of_books hto]
    exact h.here
  · rw [results_of_books hto, ← results_of_books hfrom]
    exact h.there
  · rw [operations_of_books hto]
    exact h.cursor

theorem ActsOn.of_leaves (h : ActsOn id key shared' c₀ c') (hleaves : Leaves id c c₀) :
    ActsOn id key shared' c c' := by
  refine ⟨h.config.trans hleaves.config, fun q hq => ?_, h.here, fun k shared hk hlookup => ?_,
    h.cursor⟩
  · rw [h.others q hq, hleaves.others q hq]
  · exact h.there k shared hk (hleaves.results k shared hlookup)

theorem lookup_modifyResult_self (hkey : c.results.lookup key = some shared)
    (f : SharedResult → SharedResult) :
    (c.modifyResult key f).results.lookup key = some (f shared) := by
  rw [lookup_modifyResult, hkey, Option.map_some, if_pos rfl]

/-- An operation that leaves things alone after a step on a result. -/
theorem Leaves.actsOn {f : SharedResult → SharedResult}
    (h : Leaves id (c.modifyResult key f) c') (hkey : c.results.lookup key = some shared) :
    ActsOn id key (f shared) c c' := by
  refine ActsOn.of_modifyResult ⟨h.config, h.others,
    h.results key _ (lookup_modifyResult_self hkey f), fun k shared _ hk => h.results k shared hk,
    fun stage k hstage hcursor => ?_⟩
  cases (h.free stage hstage).symm.trans hcursor

theorem books_unlock (key : Nat) :
    (c.unlock key).books = (c.modifyResult key SharedResult.unlock).books := by
  unfold unlock
  rw [books_wakeAll]

/-- An operation that passes the cursor on. -/
theorem Leaves.actsOn_unlock (h : Leaves id (c.unlock key) c')
    (hkey : c.results.lookup key = some shared) : ActsOn id key shared.unlock c c' :=
  (h.of_books (books_unlock key) rfl).actsOn hkey

/-- An operation that goes on with a cursor that it has. -/
theorem actsOn_set {stage : Stage} (hkey : c.results.lookup key = some shared)
    (hcursor : ∀ k, stage.cursor? = some k → k = key ∧ shared.holder = some id) :
    ActsOn id key shared c (c.set id stage) := by
  refine ⟨rfl, fun q hq => ?_, hkey, fun k shared _ hk => hk, fun stage' k hstage' => ?_⟩
  · rw [lookup_set, if_neg (by simpa using hq)]
  · rw [lookup_set, if_pos (beq_self_eq_true id)] at hstage'
    cases hstage'
    exact hcursor k

end Client

end CqlClient
