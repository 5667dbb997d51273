import CqlClient.Text.Number
import CqlClient.Wire

/-!
What a server says it supports: options with any number of values. Only the first value of an
option is looked at, unless the option names a protocol extension.
-/

namespace CqlClient

/-- Options by name; no name occurs twice. -/
abbrev Supported := List (String × List String)

namespace Supported

def read : Wire.WireReader Supported := lastEntries <$> Wire.stringMultimap

def contains (s : Supported) (key : String) : Bool := s.any (·.1 == key)

/-- The first value of an option. -/
def first? (s : Supported) (key : String) : Option String := (s.lookup key).bind (·.head?)

/-- The first value of an option, read in some way. -/
def get? {α : Type} (s : Supported) (read : String → Option α) (key : String) : Option α :=
  (s.first? key).bind read

end Supported

/-- Names of options that both sides know. -/
inductive ConnectionOption where
  | compression | cqlVersion | driverName | driverVersion | shard | shardCount | partitioner
  | shardingAlgorithm | shardingIgnoreMsb | shardAwarePort | shardAwarePortSsl
  deriving DecidableEq

namespace ConnectionOption

def all : List ConnectionOption :=
  [compression, cqlVersion, driverName, driverVersion, shard, shardCount, partitioner,
    shardingAlgorithm, shardingIgnoreMsb, shardAwarePort, shardAwarePortSsl]

def key : ConnectionOption → String
  | compression => "COMPRESSION"
  | cqlVersion => "CQL_VERSION"
  | driverName => "DRIVER_NAME"
  | driverVersion => "DRIVER_VERSION"
  | shard => "SCYLLA_SHARD"
  | shardCount => "SCYLLA_NR_SHARDS"
  | partitioner => "SCYLLA_PARTITIONER"
  | shardingAlgorithm => "SCYLLA_SHARDING_ALGORITHM"
  | shardingIgnoreMsb => "SCYLLA_SHARDING_IGNORE_MSB"
  | shardAwarePort => "SCYLLA_SHARD_AWARE_PORT"
  | shardAwarePortSsl => "SCYLLA_SHARD_AWARE_PORT_SSL"

def ofKey? (key : String) : Option ConnectionOption := all.find? (·.key == key)

end ConnectionOption

/-- Extensions of the protocol that a server offers. -/
structure Extensions where
  /-- The code of errors that report a rate limit. -/
  rateLimitCode : Option UInt32
  /-- The flag that marks lightweight transactions when they are prepared. -/
  lwtMask : Option UInt32
  deriving DecidableEq

namespace Extensions

def none : Extensions := ⟨.none, .none⟩

def rateLimitKey : String := "SCYLLA_RATE_LIMIT_ERROR"
def lwtKey : String := "SCYLLA_LWT_ADD_METADATA_MARK"
def rateLimitMark : String := "ERROR_CODE="
def lwtMark : String := "LWT_OPTIMIZATION_META_BIT_MASK="

/-- The number after a mark, in the first value that holds one. -/
def findMarked (s : Supported) (key mark : String) : Option UInt32 :=
  ((s.lookup key).getD []).findSome? fun value =>
    let cs := value.toList
    if mark.toList.isPrefixOf cs then
      (Text.unsigned? 0xFFFFFFFF (cs.drop mark.length)).map UInt32.ofNat
    else .none

def ofSupported (s : Supported) : Extensions :=
  ⟨findMarked s rateLimitKey rateLimitMark, findMarked s lwtKey lwtMark⟩

/-- The start-up options that acknowledge the extensions. -/
def startupOptions (e : Extensions) : List (String × String) :=
  (e.rateLimitCode.map fun _ => (rateLimitKey, "")).toList ++
    (e.lwtMask.map fun mask => (lwtKey, lwtMark ++ toString mask.toNat)).toList

end Extensions

end CqlClient
