import CqlClient.CqlType.ClassName
import CqlClient.Registry
import CqlClient.Request

/-!
Settings of statements, connections and sessions.
-/

namespace CqlClient

structure QueryOptions where
  /-- Whether iterating over a result fetches its next pages. -/
  autoPage : Bool := true
  consistency : Consistency := .localQuorum
  pageSize : Option Int32 := some 5000
  /-- Where to go on with an earlier result. -/
  pagingState : Option Bytes := none
  serialConsistency : Option SerialConsistency := none
  /-- Whether the columns of prepared statements are not sent again. -/
  skipMetadata : Bool := true
  timestamp : Option Int64 := none
  tracing : Bool := false

/-- The parameters of a statement; the state of a later page comes before that of the options. -/
def QueryOptions.parameters (o : QueryOptions) (values : BoundRow) (pagingState : Option Bytes)
    (skipMetadata : Bool) : QueryParameters where
  consistency := o.consistency
  values := some values
  skipMetadata := skipMetadata
  pageSize := o.pageSize
  pagingState := pagingState <|> o.pagingState
  serialConsistency := o.serialConsistency
  timestamp := o.timestamp

/-- A map with an entry set. -/
def setEntry {κ α : Type} [BEq κ] (entries : List (κ × α)) (key : κ) (a : α) : List (κ × α) :=
  entries.filter (·.1 != key) ++ [(key, a)]

/-- The most requests that can wait for their answers at once: stream ids are not negative. -/
def maxStreams : Nat := 2 ^ 15

structure ConnectionConfig where
  bufferSize : Nat := 8192
  connectTimeout : Nat := 5000
  maxStreams : Nat := 1024
  startupOptions : List (String × String) :=
    [("CQL_VERSION", "3.0.0"), ("DRIVER_NAME", "shardline"), ("DRIVER_VERSION", "0.1.0")]
  targetShard : Option UInt16 := none
  keepalive : Bool := true
  nodelay : Bool := true
  writeQueueCapacity : Nat := 1024

/-- The most places that a queue can be made with. -/
def maxQueueCapacity : Nat := 2 ^ 61 - 1

/-- The most bytes that a buffer can be made with. -/
def maxBufferSize : Nat := 2 ^ 63 - 1

namespace ConnectionConfig

/-- Why a connection cannot be set up with a configuration, although the server is ready for it:
there is no queue of that many places, or no buffer of that many bytes. -/
def panic? (c : ConnectionConfig) : Option Panic :=
  if c.writeQueueCapacity = 0 then some .emptyQueue
  else if maxQueueCapacity < c.writeQueueCapacity then some .wideQueue
  else if maxBufferSize < c.bufferSize then some .wideBuffer
  else none

def withMaxStreams (c : ConnectionConfig) (n : Nat) : ConnectionConfig :=
  { c with maxStreams := min (max n 1) CqlClient.maxStreams }

def withWriteQueueCapacity (c : ConnectionConfig) (n : Nat) : ConnectionConfig :=
  { c with writeQueueCapacity := max n 1 }

def withStartupOption (c : ConnectionConfig) (key value : String) : ConnectionConfig :=
  { c with startupOptions := setEntry c.startupOptions key value }

end ConnectionConfig

structure SessionConfig where
  contactPoint : Option String := none
  connection : ConnectionConfig := {}
  depthLimit : Nat := defaultDepthLimit
  queryOptions : QueryOptions := {}
  registry : Registry := .standard
  /-- The keyspace to use first. -/
  keyspace : Option String := none

end CqlClient
