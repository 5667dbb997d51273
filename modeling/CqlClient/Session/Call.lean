import CqlClient.Session.Client.Run

/-!
Calls: how callers start operations. They name statements and results by the operations that gave
them, and a call is refused when what it names is not there.
-/

namespace CqlClient

inductive Call where
  | query (cql : String) (values : List (Bound Value)) (options : Option QueryOptions)
  | prepare (cql : String)
  | execute (statement : OperationId) (values : List (Bound Value)) (options : Option QueryOptions)
  | useKeyspace (name : String)
  | createKeyspace (k : NewKeyspace)
  | dropKeyspace (name : String) (ifExists : Bool)
  | close
  | consume (result : OperationId) (consumer : Consumer)
  /-- All that is left of a result, which is given away. -/
  | drain (result : OperationId)

inductive Refusal where
  /-- The operation of that name is not over. -/
  | busy
  | noSession
  | noResult
  | noStatement
  deriving DecidableEq

def Refusal.message : Refusal → String
  | busy => "busy"
  | noSession => "no session"
  | noResult => "no result"
  | noStatement => "no statement"

namespace Client

def heldResult (c : Client) (label : OperationId) : Except Refusal Nat :=
  match c.held.lookup label with
  | some key => .ok key
  | none => .error .noResult

/-- An operation on the session, if it is open. -/
def onSession (c : Client) (operation : Except Refusal Operation) : Except Refusal Operation :=
  if c.isOpen then operation else .error .noSession

/-- The operation that a call stands for. -/
def operation (c : Client) : Call → Except Refusal Operation
  | .query cql values options => c.onSession (.ok (.query cql values options))
  | .prepare cql => c.onSession (.ok (.prepare cql))
  | .execute label values options =>
    c.onSession (match c.statements.lookup label with
      | some p => .ok (.execute p values options)
      | none => .error .noStatement)
  | .useKeyspace name => c.onSession (.ok (.useKeyspace name))
  | .createKeyspace k => c.onSession (.ok (.createKeyspace k))
  | .dropKeyspace name ifExists => c.onSession (.ok (.dropKeyspace name ifExists))
  | .close => c.onSession (.ok .close)
  | .consume label consumer => (c.heldResult label).map fun key => .consume key consumer
  | .drain label => (c.heldResult label).map fun key => .consume key (.items [])

/-- Starts the operation of a call, under a name that is free. -/
def call? (c : Client) (id : OperationId) (call : Call) : Except Refusal Client := do
  if (c.operations.lookup id).isSome then throw .busy
  let operation ← c.operation call
  let c := match call with
    | .drain label => c.forget label
    | _ => c
  return c.begin id operation

/-- Takes a row that has come. -/
def tryTake? (c : Client) (label : OperationId) :
    Except Refusal (Except ExecutionFault (Option Row) × Client) :=
  (c.heldResult label).map fun key =>
    match c.tryTake key with
    | (some (.ok row), c) => (.ok (some row), c)
    | (some (.error fault), c) => (.error fault, c)
    | (none, c) => (.ok none, c)

def isExhausted (c : Client) (label : OperationId) : Option Bool := do
  let key ← c.held.lookup label
  return (← c.results.lookup key).result.exhausted

/-- What became of an operation that is over. -/
def outcome? (c : Client) (id : OperationId) : Option Outcome := c.finished.lookup id

/-- Forgets what was sent and what is over, once it was looked at. -/
def clear (c : Client) : Client := { c with sent := [], finished := [] }

end Client

end CqlClient
