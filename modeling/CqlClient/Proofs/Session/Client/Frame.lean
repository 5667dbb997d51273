import CqlClient.Session.Call

/-!
# What the functions of a client leave alone

`Client.books` is all of a client but its connection, the bytes that come and go and the order of
its tasks. The reader and the writer leave the books as they are; an operation changes its own place
in them and leaves the other operations and the results that it does not use.

* `Client.books_readerTurn`, `Client.books_writerTurn`: turns of the reader and the writer;
* `Client.call_cases`: a request fails at once, or its frame is handed over or kept for later;
* `Client.Leaves`: what an operation leaves alone that needs no cursor afterwards.
-/

namespace CqlClient

section Entries

variable {κ α : Type} [BEq κ] [LawfulBEq κ] {entries : List (κ × α)}

theorem lookup_removeEntry (key key' : κ) :
    (removeEntry entries key).lookup key' = if key' == key then none else entries.lookup key' := by
  induction entries with
  | nil => simp [removeEntry]
  | cons entry entries ih =>
    unfold removeEntry at ih ⊢
    rw [List.filter_cons]
    split
    next hkept =>
      rw [List.lookup_cons, List.lookup_cons, ih]
      split
      next hhere =>
        rw [if_neg]
        rw [beq_iff_eq] at hhere ⊢
        rw [hhere]
        simpa using hkept
      · rfl
    next hgone =>
      obtain rfl : entry.1 = key := by simpa using hgone
      rw [ih, List.lookup_cons]
      split
      next hhere => rfl
      next hother => simp [hother]

theorem lookup_setEntry (key key' : κ) (a : α) :
    (setEntry entries key a).lookup key' =
      if key' == key then some a else entries.lookup key' := by
  have hremoved : (removeEntry entries key).lookup key' = _ := lookup_removeEntry key key'
  unfold removeEntry at hremoved
  rw [setEntry, List.lookup_append, hremoved]
  split
  next hhere => simp [List.lookup_cons, hhere]
  next hother => simp [List.lookup_cons, hother]

/-- The only entry of a map, set and taken out. -/
theorem setEntry_own (key : κ) (a a' : α) :
    setEntry [(key, a)] key a' = [(key, a')] := by
  simp [setEntry]

theorem removeEntry_own (key : κ) (a : α) :
    removeEntry [(key, a)] key = [] := by
  simp [removeEntry]

theorem lookup_mapEntries (f : κ → α → α) (key : κ) :
    (entries.map fun (k, a) => (k, f k a)).lookup key = (entries.lookup key).map (f key) := by
  induction entries with
  | nil => rfl
  | cons entry entries ih =>
    rw [List.map_cons, List.lookup_cons, List.lookup_cons, ih]
    split
    next hhere =>
      rw [beq_iff_eq] at hhere
      rw [hhere]
      rfl
    · rfl

end Entries

/-- The result whose cursor is kept while the answer of a request has to come. -/
def Goal.cursor? : Goal → Option Nat
  | .page key _ => some key
  | _ => none

def Stage.goal? : Stage → Option Goal
  | .queued _ _ goal | .waiting _ goal => some goal
  | _ => none

/-- The result that an operation has asked for a page of. -/
def Stage.asks? (stage : Stage) : Option Nat := stage.goal?.bind (·.cursor?)

/-- The result whose cursor an operation cannot do without. -/
def Stage.cursor? : Stage → Option Nat
  | .holding key _ => some key
  | stage => stage.asks?

theorem Stage.cursor?_of_asks? {stage : Stage} {key : Nat} (h : stage.asks? = some key) :
    stage.cursor? = some key := by
  cases stage with
  | holding => cases h
  | _ => exact h

theorem Stage.asks?_of_goal? {stage : Stage} {goal : Goal} (h : stage.goal? = some goal) :
    stage.asks? = goal.cursor? ∧ stage.cursor? = goal.cursor? := by
  have hasks : stage.asks? = goal.cursor? := by
    rw [Stage.asks?, h]
    rfl
  cases stage with
  | holding => cases h
  | _ => exact ⟨hasks, hasks⟩

namespace Client

variable {c c' c₀ c₁ : Client} {id : OperationId} {goal : Goal}

/-! ## The books -/

/-- All of a client but its connection, the bytes that come and go and the order of its tasks. -/
def books (c : Client) : Client :=
  { c with received := [], ended := false, deaf := false, sent := [], hungUp := false,
           connection := none, ready := [] }

theorem config_of_books (h : c'.books = c.books) : c'.config = c.config := by
  show c'.books.config = c.books.config
  rw [h]

theorem operations_of_books (h : c'.books = c.books) : c'.operations = c.operations := by
  show c'.books.operations = c.books.operations
  rw [h]

theorem results_of_books (h : c'.books = c.books) : c'.results = c.results := by
  show c'.books.results = c.books.results
  rw [h]

theorem finished_of_books (h : c'.books = c.books) : c'.finished = c.finished := by
  show c'.books.finished = c.books.finished
  rw [h]

@[simp] theorem books_wake (task : Task) : (c.wake task).books = c.books := by
  unfold wake
  split <;> rfl

theorem books_foldl {α : Type} {step : Client → α → Client}
    (hstep : ∀ c a, (step c a).books = c.books) (as : List α) :
    (as.foldl step c).books = c.books := by
  induction as generalizing c with
  | nil => rfl
  | cons a as ih => rw [List.foldl_cons, ih, hstep]

@[simp] theorem books_wakeAll (ids : List OperationId) : (c.wakeAll ids).books = c.books :=
  books_foldl (fun _ _ => books_wake _) ids

@[simp] theorem books_modifyConnection (f : Connection → Connection) :
    (c.modifyConnection f).books = c.books := rfl

@[simp] theorem books_leaveStream (stream : Nat) (sent : Bool) :
    (c.leaveStream stream sent).books = c.books := rfl

@[simp] theorem books_hangUp : c.hangUp.books = c.books := rfl

@[simp] theorem books_closePool (fault : CallFault) : (c.closePool fault).books = c.books := by
  unfold closePool
  split
  · split
    · rfl
    · rw [books_modifyConnection]
      exact books_foldl (fun _ _ => books_wakeAll _) _
  · rfl

@[simp] theorem books_endReading (fault : TransportFault) :
    (c.endReading fault).books = c.books := by
  rw [endReading, books_modifyConnection, books_closePool]

theorem books_readFrames (fuel : Nat) : (readFrames fuel c).books = c.books := by
  induction fuel generalizing c with
  | zero => rfl
  | succ fuel ih =>
    rw [readFrames]
    split
    · split
      · exact books_endReading _
      · rfl
    · exact books_endReading _
    · rw [ih, books_wakeAll]
      rfl
    · rfl

theorem books_readerTurn : c.readerTurn.books = c.books := by
  unfold readerTurn
  split
  · split
    · exact books_readFrames _
    · rfl
  · rfl

theorem books_stopWriter (n : Connection) : (c.stopWriter n).books = c.books := by
  simp only [stopWriter, books_wakeAll]
  rfl

theorem books_writeFrames (n : Connection) : (c.writeFrames n).books = c.books := by
  simp only [writeFrames, books_wakeAll]
  rfl

theorem books_writerTurn : c.writerTurn.books = c.books := by
  unfold writerTurn
  split
  · rfl
  · split
    · rfl
    · split
      · rw [books_hangUp, books_stopWriter]
      · split
        · split
          · simp only [books_stopWriter, books_closePool]
          · exact books_writeFrames _
        · split
          · rw [books_hangUp, books_stopWriter]
          · rfl

theorem books_release (n : Connection) : (c.release n).books = c.books := by
  rw [release, books_wake]
  rfl

theorem books_wakeListeners : c.wakeListeners.books = c.books :=
  books_foldl (fun _ _ => books_wake _) _

/-! ## Operations that need no cursor -/

/-- The operation needs the cursor of no result. -/
def IsFree (c : Client) (id : OperationId) : Prop :=
  ∀ stage, c.operations.lookup id = some stage → stage.cursor? = none

/-- Between the two, an operation has taken a step that changes neither the results that there are
nor another operation, and after which it needs no cursor. -/
structure Leaves (id : OperationId) (c c' : Client) : Prop where
  config : c'.config = c.config
  others : ∀ q, q ≠ id → c'.operations.lookup q = c.operations.lookup q
  results : ∀ key shared, c.results.lookup key = some shared →
    c'.results.lookup key = some shared
  free : c'.IsFree id

theorem IsFree.of_books (h : c.IsFree id) (hbooks : c'.books = c.books) : c'.IsFree id := by
  intro stage hstage
  exact h stage (operations_of_books hbooks ▸ hstage)

theorem IsFree.leaves (h : c.IsFree id) : Leaves id c c :=
  ⟨rfl, fun _ _ => rfl, fun _ _ hkey => hkey, h⟩

/-- Whether a step leaves things alone can be told from the books. -/
theorem Leaves.of_books (h : Leaves id c c') (hfrom : c.books = c₀.books)
    (hto : c₁.books = c'.books) : Leaves id c₀ c₁ := by
  refine ⟨?_, ?_, ?_, h.free.of_books hto⟩
  · rw [config_of_books hto, ← config_of_books hfrom]
    exact h.config
  · rw [operations_of_books hto, ← operations_of_books hfrom]
    exact h.others
  · rw [results_of_books hto, ← results_of_books hfrom]
    exact h.results

theorem lookup_set (stage : Stage) (q : OperationId) :
    (c.set id stage).operations.lookup q = if q == id then some stage else c.operations.lookup q :=
  lookup_setEntry id q stage

theorem leaves_set {stage : Stage} (hstage : stage.cursor? = none) :
    Leaves id c (c.set id stage) := by
  refine ⟨rfl, fun q hq => ?_, fun _ _ hkey => hkey, fun stage' hstage' => ?_⟩
  · rw [lookup_set, if_neg (by simpa using hq)]
  · rw [lookup_set, if_pos (beq_self_eq_true id)] at hstage'
    cases hstage'
    exact hstage

theorem leaves_proceed {stage : Stage} (hstage : stage.cursor? = none) :
    Leaves id c (c.proceed id stage) :=
  (leaves_set hstage).of_books rfl rfl

theorem leaves_finish (outcome : Outcome) : Leaves id c (c.finish id outcome) := by
  have hoperations : (c.finish id outcome).operations = removeEntry c.operations id := by
    cases outcome <;> rfl
  refine ⟨?_, fun q hq => ?_, fun key shared hkey => ?_, fun stage hstage => ?_⟩
  · cases outcome <;> rfl
  · rw [hoperations, lookup_removeEntry, if_neg (by simpa using hq)]
  · cases outcome with
    | result s =>
      show (c.results ++ [(c.results.length, _)]).lookup key = some shared
      rw [List.lookup_append, hkey]
      rfl
    | _ => exact hkey
  · rw [hoperations, lookup_removeEntry, if_pos (beq_self_eq_true id)] at hstage
    cases hstage

theorem leaves_deliver (key : Nat) (consumer : Consumer)
    (item : Option (Except ExecutionFault Row)) :
    Leaves id c (c.deliver id key consumer item) := by
  unfold deliver
  split
  · exact leaves_proceed rfl
  · exact leaves_finish _
  · exact leaves_proceed rfl
  · exact leaves_finish _
  · exact leaves_finish _
  · exact leaves_finish _
  · exact leaves_finish _

theorem leaves_endKeyspace (hfree : c.IsFree id) (task : KeyspaceTask)
    (result : Except KeyspaceFault Unit) : Leaves id c (c.endKeyspace id task result) := by
  unfold endKeyspace
  split
  · exact leaves_finish _
  · split
    · exact leaves_finish _
    · exact hfree.leaves
    · refine Leaves.of_books (leaves_proceed rfl) ?_ rfl
      rw [books_wake, books_modifyConnection, books_closePool]

theorem leaves_fail (hfree : c.IsFree id) (hgoal : goal.cursor? = none) (fault : ExecutionFault) :
    Leaves id c (c.fail id goal fault) := by
  unfold fail
  cases goal with
  | result => exact leaves_finish _
  | prepare => exact leaves_finish _
  | keyspace _ task => exact leaves_endKeyspace hfree task _
  | page => cases hgoal

theorem books_set (hbooks : c'.books = c.books) (stage : Stage) :
    (c'.set id stage).books = (c.set id stage).books := by
  show c'.books.set id stage = c.books.set id stage
  rw [hbooks]

theorem books_enqueue (stream : Nat) (frame : Bytes) :
    (c.enqueue id stream frame goal).books = (c.set id (.waiting stream goal)).books := by
  unfold enqueue
  exact books_set (books_wake _) _

/-- A request fails at once, or its frame is handed over or waits for room. -/
theorem call_cases (id : OperationId) (request : Request) (tracing : Bool) (goal : Goal) :
    (∃ (c₀ : Client) (fault : ExecutionFault), c₀.books = c.books ∧
      c.call id request tracing goal = c₀.fail id goal fault) ∨
    (∃ stage : Stage, stage.goal? = some goal ∧
      (c.call id request tracing goal).books = (c.set id stage).books) := by
  unfold call
  split
  · exact .inl ⟨c, _, rfl, rfl⟩
  next n _ =>
    split
    · exact .inl ⟨_, _, books_modifyConnection _, rfl⟩
    next stream pool _ =>
      simp only
      split
      · refine .inl ⟨_, _, ?_, rfl⟩
        rfl
      next frame _ =>
        split
        · refine .inl ⟨_, _, ?_, rfl⟩
          rfl
        · split
          · refine .inr ⟨.waiting stream goal, rfl, ?_⟩
            exact books_enqueue ..
          · exact .inr ⟨.queued stream frame goal, rfl, rfl⟩

theorem leaves_call (hfree : c.IsFree id) (hgoal : goal.cursor? = none) (request : Request)
    (tracing : Bool) : Leaves id c (c.call id request tracing goal) := by
  rcases call_cases (c := c) id request tracing goal with
    ⟨c₀, fault, hbooks, hcall⟩ | ⟨stage, hstage, hbooks⟩
  · rw [hcall]
    exact (leaves_fail (hfree.of_books hbooks) hgoal fault).of_books hbooks rfl
  · have hcursor := (Stage.asks?_of_goal? hstage).2.trans hgoal
    exact (leaves_set hcursor).of_books rfl hbooks

theorem leaves_acceptResult (hfree : c.IsFree id) (source : PageSource) (response : Response) :
    Leaves id c (c.acceptResult source response).2 := by
  unfold acceptResult
  split
  · split
    · split
      · exact ⟨rfl, fun _ _ => rfl, fun _ _ hkey => hkey, hfree⟩
      · exact hfree.leaves
    · exact hfree.leaves
  · exact hfree.leaves

theorem Leaves.trans (h : Leaves id c c₀) (h' : Leaves id c₀ c') : Leaves id c c' := by
  refine ⟨h'.config.trans h.config, fun q hq => ?_, fun key shared hkey => ?_, h'.free⟩
  · rw [h'.others q hq, h.others q hq]
  · exact h'.results key shared (h.results key shared hkey)

theorem leaves_settle (hfree : c.IsFree id) (hgoal : goal.cursor? = none) (response : Response) :
    Leaves id c (c.settle id goal response) := by
  unfold settle
  cases goal with
  | result source =>
    have haccept := leaves_acceptResult hfree source response
    simp only
    split
    next s c₀ heq =>
      rw [heq] at haccept
      exact haccept.trans (leaves_finish _)
    next fault c₀ heq =>
      rw [heq] at haccept
      exact haccept.trans (leaves_fail haccept.free rfl fault)
  | keyspace source task =>
    have haccept := leaves_acceptResult hfree source response
    simp only
    split
    next s c₀ heq =>
      rw [heq] at haccept
      exact haccept.trans (leaves_endKeyspace haccept.free task _)
    next fault c₀ heq =>
      rw [heq] at haccept
      exact haccept.trans (leaves_fail haccept.free rfl fault)
  | prepare cql =>
    simp only
    split
    · exact leaves_finish _
    · exact leaves_fail hfree rfl _
    · exact leaves_fail hfree rfl _
  | page => cases hgoal

theorem leaves_startKeyspace (hfree : c.IsFree id) (statement : Except InvalidKeyspace String)
    (task : KeyspaceTask) : Leaves id c (c.startKeyspace id statement task) := by
  unfold startKeyspace
  split
  · exact leaves_endKeyspace hfree task _
  · exact leaves_call hfree rfl _ _

theorem leaves_startStatement (hfree : c.IsFree id) (statement : Statement)
    (values : Except BindFault BoundRow) (options : Option QueryOptions) :
    Leaves id c (c.startStatement id statement values options) := by
  unfold startStatement
  split
  · exact leaves_finish _
  · exact leaves_call hfree rfl _ _

theorem leaves_startClosing : Leaves id c (c.startClosing id) := by
  unfold startClosing
  refine Leaves.of_books (leaves_proceed rfl) ?_ rfl
  rw [books_wake, books_modifyConnection, books_closePool]

/-- Starting any operation but one on a result. -/
theorem leaves_start (hfree : c.IsFree id) {operation : Operation}
    (hother : ∀ key consumer, operation ≠ .consume key consumer) :
    Leaves id c (c.start id operation) := by
  unfold start
  split
  · exact leaves_startStatement hfree _ _ _
  · exact leaves_startStatement hfree _ _ _
  · exact leaves_call hfree rfl _ _
  · exact leaves_startKeyspace hfree _ _
  · exact leaves_startKeyspace hfree _ _
  · exact leaves_startKeyspace hfree _ _
  · exact leaves_startClosing
  next key consumer => exact absurd rfl (hother key consumer)

theorem leaves_notOpened (fault : OpeningFault) : Leaves id c (c.notOpened id fault) :=
  (leaves_finish _).of_books books_hangUp rfl

theorem leaves_sendFirst (frame : Bytes) (h : Handshake) :
    Leaves id c (c.sendFirst id frame h) := by
  unfold sendFirst
  split
  · exact (leaves_notOpened _).of_books rfl rfl
  · exact Leaves.of_books (leaves_proceed rfl) rfl rfl

theorem leaves_establish (hfree : c.IsFree id) (s : Supported) (rest : Bytes) :
    Leaves id c (c.establish id s rest) := by
  unfold establish
  simp only
  split
  · refine (leaves_finish _).of_books ?_ rfl
    rw [books_wake, books_wake]
    rfl
  · refine (leaves_startKeyspace (hfree.of_books ?_) _ _).of_books ?_ rfl
    all_goals
      rw [books_wake, books_wake]
      rfl

theorem leaves_openingTurn (hfree : c.IsFree id) (h : Handshake) :
    Leaves id c (c.openingTurn id h) := by
  unfold openingTurn
  split
  · exact hfree.leaves
  · exact leaves_notOpened _
  next frame handshake rest _ =>
    exact (leaves_sendFirst (c := { c with received := rest }) frame handshake).of_books rfl rfl
  next s rest _ =>
    split
    · exact (leaves_finish _).of_books (books_hangUp (c := { c with received := rest })) rfl
    · exact leaves_establish hfree s rest

end Client

end CqlClient
