import CqlClient.Conversion.Shape
import CqlClient.Row.Decode

/-!
Values and rows in the shapes that programs ask for, and values back. Null fits optional shapes
alone, and every other shape takes the values of a few kinds.
-/

namespace CqlClient

inductive ConversionFault where
  | null
  | typeMismatch (expected found : String)
  | outOfRange (what : String)
  | columnCount (expected found : Nat)
  | noSuchColumn (name : String)
  | noSuchIndex (index : Nat)
  deriving DecidableEq

def ConversionFault.message : ConversionFault → String
  | null => "Unexpected null value"
  | typeMismatch expected found => "Cannot convert a " ++ found ++ " value into " ++ expected
  | outOfRange what => "Value out of range for " ++ what
  | columnCount expected found =>
    "Expected " ++ toString expected ++ " columns, found " ++ toString found
  | noSuchColumn name => "No column named `" ++ name ++ "`"
  | noSuchIndex index => "No column at index " ++ toString index

def ConversionFault.label : ConversionFault → String
  | null => "Null"
  | typeMismatch .. => "TypeMismatch"
  | outOfRange _ => "OutOfRange"
  | columnCount .. => "ColumnCount"
  | noSuchColumn _ => "NoSuchColumn"
  | noSuchIndex _ => "NoSuchIndex"

instance : Fault ConversionFault := ⟨ConversionFault.label, ConversionFault.message⟩

namespace Plain

def check {α : Type} (p : Plain) (holds : Bool) (a : α) : Except ConversionFault α :=
  if holds then .ok a else .error (.outOfRange p.name)

/-- A value in a plain shape. -/
def ofValue : (p : Plain) → Value → Except ConversionFault p.Host
  | boolean, .boolean b => .ok b
  | int8, .tinyint n => .ok n
  | int16, .smallint n => .ok n
  | int32, .int n => .ok n
  | int64, .bigint n | int64, .counter n => .ok n
  | float32, .float bits => .ok bits
  | float64, .double bits => .ok bits
  | string, .text s | string, .ascii s => .ok s
  | bytes, .blob content => .ok content
  | id, .uuid octets | id, .timeuuid octets => .ok octets
  | address, .inet a => .ok a
  | day, .date d => .ok d
  | timeOfDay, .time n => .ok n
  | timestamp, .timestamp n => .ok n
  | duration, .duration d => .ok d
  | decimal, .decimal d => .ok d
  | varint, .varint n => .ok n
  | date, .date d =>
    let date := CalendarDate.ofDaysSinceEpoch (Date.daysSinceEpoch d).toInt
    check .date date.isKept date
  | clock, .time n =>
    check .clock (0 ≤ n && n < nanosecondsPerDay) (.ofNanoseconds n.toInt.toNat)
  | instant, .timestamp n =>
    let i := Instant.ofMilliseconds n.toInt
    check .instant i.date.isKept i
  | integer, .varint n => .ok n.toInt
  | fraction, .decimal d => .ok (d.unscaled.toInt, d.scale.toInt)
  | p, v => .error (.typeMismatch p.source.name v.kind)

/-- The value that stands for what a program holds. -/
def toValue : (p : Plain) → p.Host → Except ConversionFault Value
  | boolean, b => .ok (.boolean b)
  | int8, n => .ok (.tinyint n)
  | int16, n => .ok (.smallint n)
  | int32, n => .ok (.int n)
  | int64, n => .ok (.bigint n)
  | float32, bits => .ok (.float bits)
  | float64, bits => .ok (.double bits)
  | string, s => .ok (.text s)
  | bytes, content => .ok (.blob content)
  | id, octets => .ok (.uuid octets)
  | address, a => .ok (.inet a)
  | day, d => .ok (.date d)
  | timeOfDay, n => .ok (.time n)
  | timestamp, n => .ok (.timestamp n)
  | duration, d => .ok (.duration d)
  | decimal, d => .ok (.decimal d)
  | varint, n => .ok (.varint n)
  | date, d => .ok (.date (Date.ofDaysSinceEpoch (Int32.ofInt d.daysSinceEpoch)))
  | clock, t => .ok (.time (Int64.ofNat t.nanosecondsSinceMidnight))
  | instant, i => .ok (.timestamp (Int64.ofInt i.milliseconds))
  | integer, n => .ok (.varint (.ofInt n))
  | fraction, (unscaled, scale) =>
    if -2 ^ 31 ≤ scale ∧ scale < 2 ^ 31 then .ok (.decimal ⟨.ofInt unscaled, Int32.ofInt scale⟩)
    else .error (.outOfRange "decimal scale")

/-- Puts an entry where its key belongs, in the place of an entry of the same key. -/
def insertEntry {α : Type} (p : Plain) (entry : p.Host × α) :
    List (p.Host × α) → List (p.Host × α)
  | [] => [entry]
  | head :: rest =>
    match compare (p.sortKey entry.1) (p.sortKey head.1) with
    | .lt => entry :: head :: rest
    | .eq => entry :: rest
    | .gt => head :: p.insertEntry entry rest

end Plain

/-- A value or null in a shape. The entries of a map are sorted by key, and the last entry of a key
stands for all of them. -/
def Shape.ofValue : (shape : Shape) → Option Value → Except ConversionFault shape.Host
  | .optional _, none => .ok none
  | .optional shape, some v => some <$> shape.ofValue (some v)
  | .plain _, none | .any, none | .list _, none | .map .., none => .error .null
  | .plain p, some v => p.ofValue v
  | .any, some v => .ok v
  | .list element, some v =>
    match v.elements? with
    | some elements => elements.mapM fun v => element.ofValue (some v)
    | none => .error (.typeMismatch "Vec" v.kind)
  | .map key value, some v =>
    match v with
    | .map entries =>
      entries.foldlM (fun done (k, v) => do
        let k ← key.ofValue k
        let v ← value.ofValue (some v)
        return key.insertEntry (k, v) done) []
    | v => .error (.typeMismatch "HashMap" v.kind)

/-- What a program holds together with its shape. -/
structure Datum where
  shape : Shape
  host : shape.Host

def Datum.ofValue (shape : Shape) (v : Option Value) : Except ConversionFault Datum :=
  return ⟨shape, ← shape.ofValue v⟩

namespace Row

/-- A whole row, one shape a column. -/
def convert (shapes : List Shape) (row : Row) : Except ConversionFault (List Datum) :=
  if shapes.length = row.length then
    (shapes.zip row).mapM fun (shape, v) => Datum.ofValue shape v
  else .error (.columnCount shapes.length row.length)

/-- The value at a position. -/
def cell (row : Row) (index : Nat) (shape : Shape) : Except ConversionFault Datum :=
  match row[index]? with
  | some v => Datum.ofValue shape v
  | none => .error (.noSuchIndex index)

/-- The value of the last column of a name. -/
def named (columns : Columns) (row : Row) (name : String) (shape : Shape) :
    Except ConversionFault Datum :=
  match columns.indexOf? name with
  | some index => cell row index shape
  | none => .error (.noSuchColumn name)

end Row

end CqlClient
