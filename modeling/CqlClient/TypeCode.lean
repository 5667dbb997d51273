/-!
Codes of CQL types: the twenty native types, and the heads of the types built from others.
-/

namespace CqlClient

inductive Native where
  | ascii | bigint | blob | boolean | counter | decimal | double | duration | float | int
  | timestamp | uuid | text | varint | timeuuid | inet | date | time | smallint | tinyint
  deriving DecidableEq

/-- The name of the type in CQL. -/
def Native.name : Native → String
  | ascii => "ascii"
  | bigint => "bigint"
  | blob => "blob"
  | boolean => "boolean"
  | counter => "counter"
  | decimal => "decimal"
  | double => "double"
  | duration => "duration"
  | float => "float"
  | int => "int"
  | timestamp => "timestamp"
  | uuid => "uuid"
  | text => "text"
  | varint => "varint"
  | timeuuid => "timeuuid"
  | inet => "inet"
  | date => "date"
  | time => "time"
  | smallint => "smallint"
  | tinyint => "tinyint"

/-- All native types, by name. -/
def Native.all : List Native :=
  [ascii, bigint, blob, boolean, counter, decimal, double, duration, float, int, timestamp, uuid,
    text, varint, timeuuid, inet, date, time, smallint, tinyint]

inductive TypeCode where
  | custom
  | native (type : Native)
  /-- An older code of texts, never sent by current nodes. -/
  | varchar
  | list | map | set | udt | tuple
  /-- Vectors travel as custom types; this code only names the parsed type. -/
  | vector
  deriving DecidableEq

namespace TypeCode

/-- All codes, in the order in which they are reported. -/
def all : List TypeCode :=
  [custom, native .ascii, native .bigint, native .blob, native .boolean, native .counter,
    native .decimal, native .double, native .float, native .int, varchar, native .timestamp,
    native .uuid, native .text, native .varint, native .timeuuid, native .inet, native .date,
    native .time, native .smallint, native .tinyint, native .duration, list, map, set, udt, tuple,
    vector]

def name : TypeCode → String
  | custom => "Custom"
  | native .ascii => "Ascii"
  | native .bigint => "BigInt"
  | native .blob => "Blob"
  | native .boolean => "Boolean"
  | native .counter => "Counter"
  | native .decimal => "Decimal"
  | native .double => "Double"
  | native .duration => "Duration"
  | native .float => "Float"
  | native .int => "Int"
  | native .timestamp => "Timestamp"
  | native .uuid => "Uuid"
  | native .text => "Text"
  | native .varint => "Varint"
  | native .timeuuid => "Timeuuid"
  | native .inet => "Inet"
  | native .date => "Date"
  | native .time => "Time"
  | native .smallint => "SmallInt"
  | native .tinyint => "TinyInt"
  | varchar => "Varchar"
  | list => "List"
  | map => "Map"
  | set => "Set"
  | udt => "Udt"
  | tuple => "Tuple"
  | vector => "Vector"

def wireCode : TypeCode → UInt16
  | custom | vector => 0x00
  | native .ascii => 0x01
  | native .bigint => 0x02
  | native .blob => 0x03
  | native .boolean => 0x04
  | native .counter => 0x05
  | native .decimal => 0x06
  | native .double => 0x07
  | native .float => 0x08
  | native .int => 0x09
  | varchar => 0x0A
  | native .timestamp => 0x0B
  | native .uuid => 0x0C
  | native .text => 0x0D
  | native .varint => 0x0E
  | native .timeuuid => 0x0F
  | native .inet => 0x10
  | native .date => 0x11
  | native .time => 0x12
  | native .smallint => 0x13
  | native .tinyint => 0x14
  | native .duration => 0x15
  | list => 0x20
  | map => 0x21
  | set => 0x22
  | udt => 0x30
  | tuple => 0x31

/-- The code that a wire code stands for; the code of custom types is never read as a vector. -/
def ofWire? (code : UInt16) : Option TypeCode := all.find? (·.wireCode == code)

/-- Whether a value of no bytes at all is a valid encoding. -/
def hasEmptyEncoding : TypeCode → Bool
  | custom | varchar | native .ascii | native .blob | native .text => true
  | _ => false

/-- Whether types of this code need more than the code to be described. -/
def isParametric : TypeCode → Bool
  | native _ | varchar => false
  | _ => true

/-- The native type that a code describes completely. -/
def toNative? : TypeCode → Option Native
  | native type => some type
  | varchar => some .text
  | _ => none

theorem ofWire?_wireCode {code : TypeCode} (h : code ≠ vector) :
    ofWire? code.wireCode = some code := by
  cases code with
  | vector => exact absurd rfl h
  | native type => cases type <;> rfl
  | _ => rfl

end TypeCode

end CqlClient
