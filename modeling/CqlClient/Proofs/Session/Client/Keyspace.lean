import CqlClient.Proofs.Session.Client.Events

/-!
# The keyspace of a client

`Client.named?` says of every event which keyspace it names: a statement goes on with its answer,
and the answer says which keyspace is in use now. Answers that are errors, other results, pages and
statements that were prepared name none.

* `Client.keyspace_call`, `Client.keyspace_settle`: requests and their answers;
* `Client.keyspace_happen`: whatever happens, the keyspace is the one that is named, or stays.
-/

namespace CqlClient

/-- The keyspace that is in use from now on, if a response says so. -/
def Response.keyspace? (response : Response) : Option String :=
  match response.body with
  | .result (.setKeyspace keyspace) => some keyspace
  | _ => none

/-- The keyspace that the answer to a request names. -/
def Goal.named? : Goal → Except ExecutionFault Response → Option String
  | .result _, .ok response | .keyspace .., .ok response => response.keyspace?
  | _, _ => none

namespace Client

variable {c c' : Client} {id : OperationId} {key : Nat}

/-- The keyspace that the answer names which an operation finds. -/
def stageNamed? (c : Client) : Stage → Option String
  | .waiting stream goal => (c.answer? stream).bind goal.named?
  | _ => none

/-- The keyspace that an event names. -/
def named? (c : Client) : Event → Option String
  | .turn (.operation id) _ => (c.operations.lookup id).bind c.stageNamed?
  | _ => none

/-! ## Requests -/

theorem keyspace_of_books (h : c'.books = c.books) : c'.keyspace = c.keyspace := by
  show c'.books.keyspace = c.books.keyspace
  rw [h]

@[simp] theorem keyspace_wake (task : Task) : (c.wake task).keyspace = c.keyspace :=
  keyspace_of_books (books_wake task)

@[simp] theorem keyspace_finish (outcome : Outcome) :
    (c.finish id outcome).keyspace = c.keyspace := by
  cases outcome <;> rfl

@[simp] theorem keyspace_proceed (stage : Stage) :
    (c.proceed id stage).keyspace = c.keyspace := rfl

@[simp] theorem keyspace_unlock : (c.unlock key).keyspace = c.keyspace :=
  (keyspace_of_books (books_unlock key)).trans rfl

@[simp] theorem keyspace_deliver (consumer : Consumer)
    (item : Option (Except ExecutionFault Row)) :
    (c.deliver id key consumer item).keyspace = c.keyspace := by
  unfold deliver
  split
  · rfl
  · exact keyspace_finish _
  · rfl
  · exact keyspace_finish _
  · exact keyspace_finish _
  · exact keyspace_finish _
  · exact keyspace_finish _

theorem keyspace_closing {outcome : Outcome} (fault : CallFault) :
    ((((c.closePool fault).modifyConnection fun n => { n with stopping := true }).wake
      .writer).proceed id (.closing outcome)).keyspace = c.keyspace := by
  rw [keyspace_proceed]
  exact keyspace_of_books (by simp)

@[simp] theorem keyspace_endKeyspace (task : KeyspaceTask) (result : Except KeyspaceFault Unit) :
    (c.endKeyspace id task result).keyspace = c.keyspace := by
  unfold endKeyspace
  split
  · exact keyspace_finish _
  · split
    · exact keyspace_finish _
    · rfl
    · exact keyspace_closing _

@[simp] theorem keyspace_fail (goal : Goal) (fault : ExecutionFault) :
    (c.fail id goal fault).keyspace = c.keyspace := by
  cases goal with
  | result => exact keyspace_finish _
  | prepare => exact keyspace_finish _
  | keyspace _ task => exact keyspace_endKeyspace task _
  | page key consumer => exact (keyspace_deliver consumer _).trans keyspace_unlock

@[simp] theorem keyspace_call (request : Request) (tracing : Bool) (goal : Goal) :
    (c.call id request tracing goal).keyspace = c.keyspace := by
  rcases call_cases (c := c) id request tracing goal with
    ⟨c₀, fault, hbooks, hcall⟩ | ⟨stage, _, hbooks⟩
  · rw [hcall, keyspace_fail]
    exact keyspace_of_books hbooks
  · exact (keyspace_of_books hbooks).trans rfl

/-! ## Results and their answers -/

theorem keyspace_serve (consumer : Consumer) :
    (c.serve id key consumer).keyspace = c.keyspace := by
  unfold serve
  split
  · exact keyspace_finish _
  · simp only
    split
    · exact (keyspace_deliver ..).trans keyspace_unlock
    · exact (keyspace_finish _).trans keyspace_unlock
    · exact (keyspace_finish _).trans keyspace_unlock
    · exact keyspace_call ..

theorem keyspace_lock (consumer : Consumer) : (c.lock id key consumer).keyspace = c.keyspace := by
  unfold lock
  simp only
  split
  · exact keyspace_serve consumer
  · rfl

theorem keyspace_take (consumer : Consumer) : (c.take id key consumer).keyspace = c.keyspace := by
  unfold take
  split
  · exact keyspace_lock _
  · exact keyspace_lock _
  · simp only
    split
    · exact keyspace_deliver ..
    · exact keyspace_lock _

theorem keyspace_addPage (consumer : Consumer) (body : ResponseBody) :
    (c.addPage id key consumer body).keyspace = c.keyspace := by
  unfold addPage
  split
  · exact keyspace_finish _
  · split
    · exact keyspace_fail ..
    · simp only
      split
      · exact (keyspace_finish _).trans keyspace_unlock
      · rfl

/-- The result of a statement names a keyspace only if its answer does. -/
theorem keyspace_acceptResult (source : PageSource) (response : Response) :
    (c.acceptResult source response).2.keyspace = response.keyspace?.or c.keyspace := by
  unfold acceptResult Response.keyspace?
  cases response.body with
  | result r =>
    cases r with
    | rows rows =>
      simp only [ResultSet.ofResult]
      cases Page.ofRows rows source.columns? with
      | error fault => rfl
      | ok page => rfl
    | setKeyspace keyspace => rfl
    | void => rfl
    | prepared p => rfl
    | schemaChange change => rfl
  | _ => rfl

theorem keyspace_settle (goal : Goal) (response : Response) :
    (c.settle id goal response).keyspace = (goal.named? (.ok response)).or c.keyspace := by
  cases goal with
  | result source =>
    refine Eq.trans ?_ (keyspace_acceptResult source response)
    simp only [settle]
    split
    next heq => rw [heq, keyspace_finish]
    next heq => rw [heq, keyspace_fail]
  | keyspace source task =>
    refine Eq.trans ?_ (keyspace_acceptResult source response)
    simp only [settle]
    split
    next heq => rw [heq, keyspace_endKeyspace]
    next heq => rw [heq, keyspace_fail]
  | prepare cql =>
    simp only [settle, Goal.named?, Option.none_or]
    split
    · exact keyspace_finish _
    · exact keyspace_fail ..
    · exact keyspace_fail ..
  | page key consumer =>
    simp only [settle, Goal.named?, Option.none_or]
    exact keyspace_addPage consumer response.body

/-! ## Turns -/

theorem keyspace_startKeyspace (statement : Except InvalidKeyspace String) (task : KeyspaceTask) :
    (c.startKeyspace id statement task).keyspace = c.keyspace := by
  unfold startKeyspace
  split
  · exact keyspace_endKeyspace ..
  · exact keyspace_call ..

theorem keyspace_startStatement (statement : Statement) (values : Except BindFault BoundRow)
    (options : Option QueryOptions) :
    (c.startStatement id statement values options).keyspace = c.keyspace := by
  unfold startStatement
  split
  · exact keyspace_finish _
  · exact keyspace_call ..

theorem keyspace_start (operation : Operation) :
    (c.start id operation).keyspace = c.keyspace := by
  cases operation with
  | query => exact keyspace_startStatement ..
  | execute => exact keyspace_startStatement ..
  | prepare => exact keyspace_call ..
  | useKeyspace => exact keyspace_startKeyspace ..
  | createKeyspace => exact keyspace_startKeyspace ..
  | dropKeyspace => exact keyspace_startKeyspace ..
  | close => exact keyspace_closing _
  | consume => exact keyspace_take _

theorem keyspace_notOpened (fault : OpeningFault) :
    (c.notOpened id fault).keyspace = c.keyspace := keyspace_finish _

theorem keyspace_establish (s : Supported) (rest : Bytes) :
    (c.establish id s rest).keyspace = c.keyspace := by
  unfold establish
  simp only
  split
  · rw [keyspace_finish, keyspace_wake, keyspace_wake]
  · rw [keyspace_startKeyspace, keyspace_wake, keyspace_wake]

theorem keyspace_openingTurn (h : Handshake) : (c.openingTurn id h).keyspace = c.keyspace := by
  unfold openingTurn
  split
  · rfl
  · exact keyspace_notOpened _
  · unfold sendFirst
    split
    · exact keyspace_notOpened _
    · rfl
  · split
    · rw [keyspace_finish]
      rfl
    · exact keyspace_establish ..

theorem keyspace_queued {stream : Nat} {frame : Bytes} {goal : Goal}
    (hstage : c.operations.lookup id = some (.queued stream frame goal)) :
    (c.operationTurn id).keyspace = c.keyspace := by
  unfold operationTurn
  rw [hstage]
  simp only
  split
  · rfl
  · split
    · exact (keyspace_fail ..).trans (keyspace_of_books (books_leaveStream ..))
    · split
      · rfl
      · exact (keyspace_of_books (books_enqueue stream frame)).trans rfl

theorem keyspace_waiting {stream : Nat} {goal : Goal}
    (hstage : c.operations.lookup id = some (.waiting stream goal)) :
    (c.operationTurn id).keyspace =
      ((c.answer? stream).bind goal.named?).or c.keyspace := by
  rcases operationTurn_waiting hstage with ⟨hanswer, hturn⟩ | ⟨c₀, answer, hbooks, hanswer, hturn⟩
  · rw [hturn, hanswer]
    rfl
  · rw [hturn, hanswer, Option.bind_some, ← keyspace_of_books hbooks]
    cases answer with
    | error fault =>
      have hnamed : goal.named? (.error fault) = none := by cases goal <;> rfl
      rw [hnamed, Option.none_or]
      exact keyspace_fail ..
    | ok response => exact keyspace_settle ..

theorem keyspace_operationTurn (c : Client) (id : OperationId) :
    (c.operationTurn id).keyspace =
      ((c.operations.lookup id).bind c.stageNamed?).or c.keyspace := by
  cases hstage : c.operations.lookup id with
  | none =>
    rw [operationTurn, hstage]
    rfl
  | some stage =>
    cases stage with
    | waiting stream goal => exact keyspace_waiting hstage
    | queued stream frame goal => exact keyspace_queued hstage
    | fresh operation =>
      rw [operationTurn, hstage]
      exact keyspace_start operation
    | opening h =>
      rw [operationTurn, hstage]
      exact keyspace_openingTurn h
    | taking key consumer =>
      rw [operationTurn, hstage]
      exact keyspace_take consumer
    | holding key consumer =>
      rw [operationTurn, hstage]
      exact keyspace_serve consumer
    | locking key consumer =>
      rw [operationTurn, hstage]
      simp only
      split
      · exact keyspace_serve consumer
      · rfl
    | closing outcome =>
      rw [operationTurn, hstage]
      simp only
      split
      · rfl
      · exact keyspace_finish _

/-! ## Every event -/

theorem keyspace_call? {call : Call} (h : c.call? id call = .ok c') : c'.keyspace = c.keyspace := by
  unfold call? at h
  simp only at h
  by_cases hbusy : (c.operations.lookup id).isSome = true
  · rw [if_pos hbusy] at h
    cases h
  · rw [if_neg hbusy] at h
    obtain ⟨operation, _, h⟩ := bind_eq_ok.mp h
    cases h
    cases call <;> exact keyspace_wake _

theorem keyspace_leaveResult : (c.leaveResult id key).keyspace = c.keyspace := by
  unfold leaveResult
  split
  · exact keyspace_unlock
  · rfl

theorem keyspace_leaveGoal (goal : Goal) : (c.leaveGoal id goal).keyspace = c.keyspace := by
  cases goal with
  | page => exact keyspace_leaveResult
  | _ => rfl

theorem keyspace_cancel : (c.cancel id).keyspace = c.keyspace := by
  unfold cancel
  simp only
  split
  · rfl
  · rfl
  · exact (keyspace_leaveGoal _).trans rfl
  · exact (keyspace_leaveGoal _).trans rfl
  · exact keyspace_leaveResult.trans rfl
  · exact keyspace_leaveResult.trans rfl
  · rfl
  · rfl
  · rfl

theorem keyspace_tryTake : (c.tryTake key).2.keyspace = c.keyspace := by
  unfold tryTake
  split <;> rfl

/-- Whatever happens to a client, its keyspace is the one that is named then, or stays as it is. -/
theorem keyspace_happen (c : Client) (e : Event) :
    (c.happen e).keyspace = (c.named? e).or c.keyspace := by
  cases e with
  | turn task ready =>
    cases task with
    | operation id => exact keyspace_operationTurn { c with ready } id
    | reader => exact keyspace_of_books books_readerTurn
    | writer => exact keyspace_of_books books_writerTurn
  | call id call =>
    show (c.happen (.call id call)).keyspace = c.keyspace
    rw [happen]
    split
    next hcall => exact keyspace_call? hcall
    · rfl
  | tryTake label =>
    show (c.happen (.tryTake label)).keyspace = c.keyspace
    cases hlabel : c.held.lookup label with
    | some key =>
      rw [happen_tryTake hlabel]
      exact keyspace_tryTake
    | none =>
      rw [happen, tryTake?, heldResult, hlabel]
      rfl
  | cancel id => exact keyspace_cancel
  | receive bytes =>
    show (c.receive bytes).keyspace = c.keyspace
    unfold receive
    split
    · rfl
    · exact (keyspace_of_books books_wakeListeners).trans rfl
  | endSending => exact (keyspace_of_books books_wakeListeners).trans rfl
  | release =>
    show (c.happen .release).keyspace = c.keyspace
    rw [happen]
    split
    · exact keyspace_of_books (books_release _)
    · rfl
  | _ => rfl

end Client

end CqlClient
