import CqlClient.Session.Client

/-!
Requests of operations, and taking rows of results. A request that cannot be sent gives its stream
back at once. The cursor of a result passes to the operation that has waited longest for it.
-/

namespace CqlClient.Client

/-- Gives the cursor of a result to the next operation that waits for it. -/
def unlock (c : Client) (key : Nat) : Client :=
  let next := ((c.results.lookup key).map (·.waiting.take 1)).getD []
  (c.modifyResult key SharedResult.unlock).wakeAll next

/-- Gives a row, a fault or the end of a result to the operation that asked for it. -/
def deliver (c : Client) (id : OperationId) (key : Nat) (consumer : Consumer)
    (item : Option (Except ExecutionFault Row)) : Client :=
  match consumer, item with
  | .items taken, some item => c.proceed id (.taking key (.items (item :: taken)))
  | .items taken, none => c.finish id (.items taken.reverse)
  | .rows taken, some (.ok row) => c.proceed id (.taking key (.rows (row :: taken)))
  | .rows taken, none => c.finish id (.rows taken.reverse)
  | _, some (.error fault) => c.finish id (.failed fault)
  | _, some (.ok row) => c.finish id (.row (some row))
  | _, none => c.finish id (.row none)

/-- Has a session that could not use its keyspace close, and any other operation end. -/
def endKeyspace (c : Client) (id : OperationId) (task : KeyspaceTask)
    (result : Except KeyspaceFault Unit) : Client :=
  if !task.opening then c.finish id (.keyspace result)
  else match result, c.connection with
    | .ok (), some n => c.finish id (.opened n.sharding n.extensions c.config.queryOptions)
    | .ok (), none => c
    | .error fault, _ =>
      let c := c.closePool .closed
      let c := c.modifyConnection fun n => { n with stopping := true }
      (c.wake .writer).proceed id (.closing (.notOpened (.keyspace fault)))

/-- What a failed statement says of a keyspace. -/
def keyspaceFault (task : KeyspaceTask) : ExecutionFault → KeyspaceFault
  | .database e =>
    match e.error.known? with
    | some .alreadyExists => .alreadyExists task.name e
    | some code =>
      if some code = task.absent then .doesNotExist task.name e else .other (.database e)
    | none => .other (.database e)
  | fault => .other fault

/-- Ends what a request was for without an answer. The pages and the paging state of a result are
left as they are. -/
def fail (c : Client) (id : OperationId) (goal : Goal) (fault : ExecutionFault) : Client :=
  match goal with
  | .result _ | .prepare _ => c.finish id (.failed fault)
  | .keyspace _ task => c.endKeyspace id task (.error (keyspaceFault task fault))
  | .page key consumer => (c.unlock key).deliver id key consumer (some (.error fault))

/-- Hands a frame to the writer and waits for its answer. -/
def enqueue (c : Client) (id : OperationId) (stream : Nat) (frame : Bytes) (goal : Goal) : Client :=
  let c := c.modifyConnection fun n => { n with queue := n.queue ++ [frame] }
  (c.wake .writer).proceed id (.waiting stream goal)

def leaveStream (c : Client) (stream : Nat) (sent : Bool) : Client :=
  c.modifyConnection fun n => { n with pool := n.pool.leave stream sent }

/-- Sends a request, or waits for room in the queue. -/
def call (c : Client) (id : OperationId) (request : Request) (tracing : Bool) (goal : Goal) :
    Client :=
  match c.connection with
  | none => c.fail id goal (.call .closed)
  | some n =>
    match n.pool.allocate with
    | (.error fault, pool) =>
      (c.modifyConnection fun n => { n with pool }).fail id goal (.call fault)
    | (.ok stream, pool) =>
      let c := c.modifyConnection fun n => { n with pool }
      match request.frame tracing (Int16.ofNat stream) with
      | .error fault => (c.leaveStream stream false).fail id goal (.call (.invalid fault))
      | .ok frame =>
        if !n.writing then (c.leaveStream stream false).fail id goal (.call .closed)
        else if n.senders.isEmpty &&
            n.queue.length + n.granted < c.config.connection.writeQueueCapacity then
          c.enqueue id stream frame goal
        else
          let c := c.modifyConnection fun n => { n with senders := n.senders ++ [id] }
          c.set id (.queued stream frame goal)

/-- Serves the holder of the cursor of a result. -/
def serve (c : Client) (id : OperationId) (key : Nat) (consumer : Consumer) : Client :=
  match c.results.lookup key with
  | none => c.finish id (.row none)
  | some shared =>
    let (service, result) := shared.result.serve c.config.registry consumer.want
    let c := c.modifyResult key fun shared => { shared with result }
    match service with
    | .inl (.row item) => (c.unlock key).deliver id key consumer item
    | .inl (.page fetched) => (c.unlock key).finish id (.page fetched)
    | .inl (.pagingState state) => (c.unlock key).finish id (.pagingState state)
    | .inr (request, tracing) => c.call id request tracing (.page key consumer)

/-- Asks for the cursor of a result. -/
def lock (c : Client) (id : OperationId) (key : Nat) (consumer : Consumer) : Client :=
  let c' := c.modifyResult key (·.lock id)
  match (c.results.lookup key).bind (·.holder) with
  | none => c'.serve id key consumer
  | some _ => c'.set id (.locking key consumer)

/-- Starts to take from a result. One that is exhausted has no row, whoever holds the cursor. -/
def take (c : Client) (id : OperationId) (key : Nat) (consumer : Consumer) : Client :=
  let exhausted := ((c.results.lookup key).map (·.result.exhausted)).getD true
  match consumer with
  | .page | .pagingState => c.lock id key consumer
  | _ => if exhausted then c.deliver id key consumer none else c.lock id key consumer

/-- Adds the page that has come for the holder of a cursor. -/
def addPage (c : Client) (id : OperationId) (key : Nat) (consumer : Consumer)
    (body : ResponseBody) : Client :=
  match c.results.lookup key with
  | none => c.finish id (.row none)
  | some shared =>
    match shared.result.receive consumer.want body with
    | .error fault => c.fail id (.page key consumer) fault
    | .ok (service, result) =>
      let c := c.modifyResult key fun shared => { shared with result }
      match service with
      | some (.page fetched) => (c.unlock key).finish id (.page fetched)
      | _ => c.proceed id (.holding key consumer)

/-- The result of a statement; a result that names a keyspace makes it the current one. -/
def acceptResult (c : Client) (source : PageSource) (response : Response) :
    Except ExecutionFault ResultSet × Client :=
  match response.body with
  | .result result =>
    match ResultSet.ofResult result response source with
    | .ok s =>
      match s.kind with
      | .setKeyspace keyspace => (.ok s, { c with keyspace := some keyspace })
      | _ => (.ok s, c)
    | .error fault => (.error fault, c)
  | body => (.error (.call (.violation (.unexpected body.name))), c)

/-- Goes on with the answer of a request. -/
def settle (c : Client) (id : OperationId) (goal : Goal) (response : Response) : Client :=
  match goal with
  | .result source =>
    match c.acceptResult source response with
    | (.ok s, c) => c.finish id (.result s)
    | (.error fault, c) => c.fail id goal fault
  | .keyspace source task =>
    match c.acceptResult source response with
    | (.ok _, c) => c.endKeyspace id task (.ok ())
    | (.error fault, c) => c.fail id goal fault
  | .prepare cql =>
    match response.body with
    | .result (.prepared p) => c.finish id (.prepared cql p)
    | .result other => c.fail id goal (.call (.violation (.unexpected other.name)))
    | body => c.fail id goal (.call (.violation (.unexpected body.name)))
  | .page key consumer => c.addPage id key consumer response.body

/-- What an envelope answers, for the extensions in use. -/
def readAnswer (n : Connection) (limit : Nat) (result : Except CallFault Envelope) :
    Except ExecutionFault Response := do
  let e ← result.mapError .call
  let response ← (Response.ofEnvelope n.extensions limit e).mapError fun fault =>
    .call (.violation (.malformed fault))
  response.ok.mapError .database

end CqlClient.Client
