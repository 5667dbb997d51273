import CqlClient.TypeCode
import CqlClient.Value.Varint

/-!
Values of CQL types. Floating point numbers are kept as their bits.
-/

namespace CqlClient

/-- Byte strings of a given length. -/
abbrev Octets (n : Nat) := { bytes : Bytes // bytes.length = n }

def Octets.ofBytes? (n : Nat) (bytes : Bytes) : Option (Octets n) :=
  if h : bytes.length = n then some ⟨bytes, h⟩ else none

inductive IpAddress where
  | v4 (octets : Octets 4)
  | v6 (octets : Octets 16)
  deriving DecidableEq

def IpAddress.bytes : IpAddress → Bytes
  | v4 octets => octets.1
  | v6 octets => octets.1

/-- A number `unscaled * 10 ^ (-scale)`. -/
structure Decimal where
  unscaled : Varint
  scale : Int32
  deriving DecidableEq

structure Duration where
  months : Int32
  days : Int32
  nanoseconds : Int64
  deriving DecidableEq

inductive Value where
  | ascii (text : String)
  | bigint (n : Int64)
  | blob (bytes : Bytes)
  | boolean (b : Bool)
  | counter (n : Int64)
  /-- Days, counted so that the epoch is day 2^31. -/
  | date (day : UInt32)
  | decimal (d : Decimal)
  | double (bits : UInt64)
  | duration (d : Duration)
  | float (bits : UInt32)
  | inet (address : IpAddress)
  | int (n : Int32)
  | list (elements : List Value)
  | map (entries : List (Value × Value))
  | set (elements : List Value)
  | smallint (n : Int16)
  | text (text : String)
  /-- Nanoseconds since midnight. -/
  | time (nanoseconds : Int64)
  /-- Milliseconds since the epoch. -/
  | timestamp (milliseconds : Int64)
  | timeuuid (id : Octets 16)
  | tinyint (n : Int8)
  | tuple (elements : List (Option Value))
  | udt (keyspace name : String) (fields : List (String × Option Value))
  | uuid (id : Octets 16)
  | varint (n : Varint)
  | vector (elements : List Value)

namespace Value

/-- The code of the type that a value belongs to by itself. -/
def code : Value → TypeCode
  | ascii _ => .native .ascii
  | bigint _ => .native .bigint
  | blob _ => .native .blob
  | boolean _ => .native .boolean
  | counter _ => .native .counter
  | date _ => .native .date
  | decimal _ => .native .decimal
  | double _ => .native .double
  | duration _ => .native .duration
  | float _ => .native .float
  | inet _ => .native .inet
  | int _ => .native .int
  | list _ => .list
  | map _ => .map
  | set _ => .set
  | smallint _ => .native .smallint
  | text _ => .native .text
  | time _ => .native .time
  | timestamp _ => .native .timestamp
  | timeuuid _ => .native .timeuuid
  | tinyint _ => .native .tinyint
  | tuple _ => .tuple
  | udt .. => .udt
  | uuid _ => .native .uuid
  | varint _ => .native .varint
  | vector _ => .vector

/-- What a value is called in messages. -/
def kind (v : Value) : String :=
  match v.code with
  | .native type => type.name
  | .list => "list"
  | .map => "map"
  | .set => "set"
  | .tuple => "tuple"
  | .udt => "udt"
  | .vector => "vector"
  | .varchar => "varchar"
  | .custom => "custom"

def text? : Value → Option String
  | text s | ascii s => some s
  | _ => none

def int? : Value → Option Int32
  | int n => some n
  | _ => none

def bigint? : Value → Option Int64
  | bigint n | counter n => some n
  | _ => none

/-- The elements of a list, a set or a vector. -/
def elements? : Value → Option (List Value)
  | list elements | set elements | vector elements => some elements
  | _ => none

/-- The first field of a name: absent, null or a value. -/
def field? (v : Value) (name : String) : Option (Option Value) :=
  match v with
  | udt _ _ fields => fields.lookup name
  | _ => none

end Value

/-- What is bound to a column: null clears it, unset leaves it as it is. -/
inductive Bound (α : Type) where
  | value (a : α)
  | null
  | unset
  deriving DecidableEq

namespace Date

/-- The day that a number of days since the epoch falls on. -/
def ofDaysSinceEpoch (days : Int32) : UInt32 := days.toUInt32 + 0x80000000

def daysSinceEpoch (day : UInt32) : Int32 := (day - 0x80000000).toInt32

end Date

/-- The nanoseconds of a day, which no time of day reaches. -/
def nanosecondsPerDay : Int64 := 86400000000000

end CqlClient
