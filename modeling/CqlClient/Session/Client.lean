import CqlClient.Session.SharedResult
import CqlClient.Session.StreamPool

/-!
A running client: one connection over a stream of bytes, the session on it, the results that have
come, and the operations under way. Everything that runs is a task: the reader of the connection,
its writer, and each operation. Tasks take turns in the order in which they were woken.
-/

namespace CqlClient

inductive Task where
  | reader
  | writer
  | operation (id : OperationId)
  deriving DecidableEq

structure Connection where
  pool : StreamPool
  extensions : Extensions
  sharding : Option Sharding
  /-- Frames to be written, in order. -/
  queue : List Bytes
  /-- Operations that wait for room in the queue, in order. -/
  senders : List OperationId
  /-- How much room is kept for operations that were woken for it. -/
  granted : Nat
  reading : Bool
  writing : Bool
  /-- Whether the writer is to stop, leaving the queue as it is. -/
  stopping : Bool
  /-- Whether nobody uses the connection any more. -/
  released : Bool

structure Client where
  config : SessionConfig
  /-- The bytes that have come and are not read yet. -/
  received : Bytes
  /-- Whether the other side has ended what it sends: nothing more comes. -/
  ended : Bool
  /-- Whether the other side takes nothing any more: what is sent does not arrive. -/
  deaf : Bool
  /-- The frames sent, the last one first. -/
  sent : List Bytes
  /-- Whether the other side has seen this side close the stream of bytes. -/
  hungUp : Bool
  connection : Option Connection
  /-- Whether the session is open to its callers. -/
  isOpen : Bool
  keyspace : Option String
  results : List (Nat × SharedResult)
  /-- The keys of the results that callers hold, by the operation that gave them. -/
  held : List (OperationId × Nat)
  statements : List (OperationId × Prepared)
  operations : List (OperationId × Stage)
  /-- The tasks that are to take a turn, in order. -/
  ready : List Task
  /-- The operations that have ended, the last one first. -/
  finished : List (OperationId × Outcome)

def removeEntry {κ α : Type} [BEq κ] (entries : List (κ × α)) (key : κ) : List (κ × α) :=
  entries.filter (·.1 != key)

namespace Client

def wake (c : Client) (task : Task) : Client :=
  if c.ready.contains task then c else { c with ready := c.ready ++ [task] }

def wakeAll (c : Client) (ids : List OperationId) : Client :=
  ids.foldl (fun c id => c.wake (.operation id)) c

/-- Moves an operation on. -/
def set (c : Client) (id : OperationId) (stage : Stage) : Client :=
  { c with operations := setEntry c.operations id stage }

/-- Moves an operation on, to go on at once. -/
def proceed (c : Client) (id : OperationId) (stage : Stage) : Client :=
  let c := c.set id stage
  { c with ready := .operation id :: c.ready }

def modifyConnection (c : Client) (f : Connection → Connection) : Client :=
  { c with connection := c.connection.map f }

def modifyResult (c : Client) (key : Nat) (f : SharedResult → SharedResult) : Client :=
  { c with results := c.results.map fun (k, s) => (k, if k = key then f s else s) }

/-- Ends an operation. Its result or statement can be used under its name from now on. -/
def finish (c : Client) (id : OperationId) (outcome : Outcome) : Client :=
  let c := { c with
    operations := removeEntry c.operations id
    finished := (id, outcome) :: c.finished }
  match outcome with
  | .opened .. => { c with isOpen := true }
  | .result s =>
    let key := c.results.length
    { c with results := c.results ++ [(key, ⟨s, none, []⟩)], held := setEntry c.held id key }
  | .prepared _ p => { c with statements := setEntry c.statements id p }
  | _ => c

/-- The operations that wait for an answer, by stream. -/
def waitingOn (c : Client) (stream : Nat) : List OperationId :=
  c.operations.filterMap fun (id, stage) =>
    match stage with
    | .waiting s _ => if s = stream then some id else none
    | _ => none

/-- Closes the stream pool; operations are woken by stream id. -/
def closePool (c : Client) (fault : CallFault) : Client :=
  match c.connection with
  | some { pool, .. } =>
    if pool.closed then c
    else
      let c := (List.range pool.size).foldl (fun c stream => c.wakeAll (c.waitingOn stream)) c
      c.modifyConnection fun n => { n with pool := n.pool.close fault }
  | none => c

/-- Closes the stream of bytes, which the other side sees unless it takes nothing any more. -/
def hangUp (c : Client) : Client := { c with hungUp := c.hungUp || !c.deaf }

/-- Whether anyone may still use the connection. -/
def isUsed (c : Client) : Bool :=
  c.isOpen || !c.operations.isEmpty ||
    c.held.any fun (_, key) => (c.results.lookup key).any (·.result.cursor.source.isSome)

end Client

end CqlClient
