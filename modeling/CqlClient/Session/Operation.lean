import CqlClient.Session.Handshake
import CqlClient.Session.ResultSet

/-!
Operations on sessions and results: what callers ask for, how far each has come, and what it ends
with.
-/

namespace CqlClient

/-- Operations go by the names that their callers give them. -/
abbrev OperationId := String

/-- What is wanted of the cursor of a result. What was taken so far is kept in reverse. -/
inductive Consumer where
  | row
  /-- Rows until the end or a fault. -/
  | rows (taken : List Row)
  /-- Rows and faults until the end. -/
  | items (taken : List (Except ExecutionFault Row))
  /-- Another page, whatever the options say. -/
  | page
  | pagingState

inductive Operation where
  | query (cql : String) (values : List (Bound Value)) (options : Option QueryOptions)
  | prepare (cql : String)
  | execute (p : Prepared) (values : List (Bound Value)) (options : Option QueryOptions)
  | useKeyspace (name : String)
  | createKeyspace (k : NewKeyspace)
  | dropKeyspace (name : String) (ifExists : Bool)
  | close
  /-- On the result of a key. -/
  | consume (result : Nat) (consumer : Consumer)

/-- A statement on a keyspace: the code by which a server says that there is none, and whether the
session is still being opened. -/
structure KeyspaceTask where
  name : String
  absent : Option ErrorCode
  opening : Bool

/-- What the answer of a request is for. -/
inductive Goal where
  | result (source : PageSource)
  | keyspace (source : PageSource) (task : KeyspaceTask)
  | prepare (cql : String)
  | page (result : Nat) (consumer : Consumer)

inductive Outcome where
  | opened (sharding : Option Sharding) (extensions : Extensions) (options : QueryOptions)
  | notOpened (fault : OpeningFault)
  | result (s : ResultSet)
  | prepared (cql : String) (p : Prepared)
  | keyspace (result : Except KeyspaceFault Unit)
  | row (row : Option Row)
  | rows (rows : List Row)
  | items (items : List (Except ExecutionFault Row))
  | page (fetched : Bool)
  | pagingState (state : Option Bytes)
  | closed
  | failed (fault : ExecutionFault)
  /-- The program has given up, which nobody is told. -/
  | panicked (cause : Panic)

/-- How far an operation has come. -/
inductive Stage where
  | fresh (operation : Operation)
  | opening (h : Handshake)
  /-- The frame waits for room in the write queue. -/
  | queued (stream : Nat) (frame : Bytes) (goal : Goal)
  /-- The frame is handed over and its answer has to come. -/
  | waiting (stream : Nat) (goal : Goal)
  /-- Another row is to be taken. -/
  | taking (result : Nat) (consumer : Consumer)
  /-- The cursor is held by others. -/
  | locking (result : Nat) (consumer : Consumer)
  /-- The cursor is held. -/
  | holding (result : Nat) (consumer : Consumer)
  /-- The writer has to stop before the operation ends. -/
  | closing (outcome : Outcome)

end CqlClient
