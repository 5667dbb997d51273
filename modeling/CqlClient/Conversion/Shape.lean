import CqlClient.Calendar
import CqlClient.Text.Pieces
import CqlClient.Text.Number
import CqlClient.Value

/-!
The shapes in which programs ask for values, and the type of what they then hold.
-/

namespace CqlClient

/-- Shapes without parts. -/
inductive Plain where
  | boolean | int8 | int16 | int32 | int64 | float32 | float64 | string | bytes | id | address
  | day | timeOfDay | timestamp | duration | decimal | varint
  /-- As `day`, in the calendar. -/
  | date
  /-- As `timeOfDay`, on the clock. -/
  | clock
  /-- As `timestamp`, in the calendar and on the clock. -/
  | instant
  /-- As `varint`, as a number. -/
  | integer
  /-- As `decimal`, as two numbers. -/
  | fraction
  deriving DecidableEq

namespace Plain

def all : List Plain :=
  [boolean, int8, int16, int32, int64, float32, float64, string, bytes, id, address, day,
    timeOfDay, timestamp, duration, decimal, varint, date, clock, instant, integer, fraction]

def name : Plain → String
  | boolean => "bool"
  | int8 => "i8"
  | int16 => "i16"
  | int32 => "i32"
  | int64 => "i64"
  | float32 => "f32"
  | float64 => "f64"
  | string => "String"
  | bytes => "Vec<u8>"
  | id => "Uuid"
  | address => "IpAddr"
  | day => "CqlDate"
  | timeOfDay => "CqlTime"
  | timestamp => "CqlTimestamp"
  | duration => "CqlDuration"
  | decimal => "CqlDecimal"
  | varint => "CqlVarint"
  | date => "NaiveDate"
  | clock => "NaiveTime"
  | instant => "DateTime<Utc>"
  | integer => "BigInt"
  | fraction => "BigDecimal"

/-- The shape that values are first brought into. -/
def source : Plain → Plain
  | date => day
  | clock => timeOfDay
  | instant => timestamp
  | integer => varint
  | fraction => decimal
  | p => p

/-- What a program holds. Floating point numbers are held as their bits. -/
def Host : Plain → Type
  | boolean => Bool
  | int8 => Int8
  | int16 => Int16
  | int32 => Int32
  | int64 | timeOfDay | timestamp => Int64
  | float32 | day => UInt32
  | float64 => UInt64
  | string => String
  | bytes => Bytes
  | id => Octets 16
  | address => IpAddress
  | duration => Duration
  | decimal => Decimal
  | varint => Varint
  | date => CalendarDate
  | clock => ClockTime
  | instant => Instant
  | integer => Int
  | fraction => Int × Int

/-- What the order of hosts looks at: numbers go by size, texts by their characters, byte strings by
their bytes. -/
def sortKey : (p : Plain) → p.Host → List Int
  | boolean, b => [cond b 1 0]
  | int8, n => [n.toInt]
  | int16, n => [n.toInt]
  | int32, n => [n.toInt]
  | int64, n | timeOfDay, n | timestamp, n => [n.toInt]
  | float32, bits | day, bits => [(bits.toNat : Int)]
  | float64, bits => [(bits.toNat : Int)]
  | string, s => s.toList.map fun c => (c.toNat : Int)
  | bytes, content => content.map fun b => (b.toNat : Int)
  | id, octets => octets.1.map fun b => (b.toNat : Int)
  | address, a => a.bytes.map fun b => (b.toNat : Int)
  | duration, d => [d.months.toInt, d.days.toInt, d.nanoseconds.toInt]
  | decimal, d => [d.scale.toInt, d.unscaled.toInt]
  | varint, n => [n.toInt]
  | date, d => [d.year, d.month, d.day]
  | clock, t => [(t.nanosecondsSinceMidnight : Int)]
  | instant, i => [i.seconds, i.nanosecond]
  | integer, n => [n]
  | fraction, (unscaled, scale) => [scale, unscaled]

end Plain

inductive Shape where
  | plain (p : Plain)
  /-- The value itself. -/
  | any
  /-- A value or null. -/
  | optional (shape : Shape)
  | list (element : Shape)
  | map (key : Plain) (value : Shape)
  deriving DecidableEq

namespace Shape

def Host : Shape → Type
  | plain p => p.Host
  | any => Value
  | optional shape => Option shape.Host
  | list element => List element.Host
  | map key value => List (key.Host × value.Host)

/-- Reads a shape as it is named, `fuel` bounding how deep names are nested. -/
def ofNameWithin? : Nat → List Char → Option Shape
  | 0, _ => none
  | fuel + 1, cs =>
    match Plain.all.find? (·.name.toList == cs) with
    | some p => some (plain p)
    | none =>
      match Text.splitOuter '<' cs with
      | (name, none) => if name == "CqlValue".toList then some any else none
      | (name, some inner) => do
        let inner ← Text.withoutClosing? '>' inner
        match String.ofList name, Text.pieces '<' '>' inner with
        | "Option", [shape] => optional <$> ofNameWithin? fuel shape
        | "Vec", [element] => list <$> ofNameWithin? fuel element
        | "HashMap", [key, value] =>
          match ← ofNameWithin? fuel key with
          | plain key => map key <$> ofNameWithin? fuel value
          | _ => none
        | _, _ => none

def ofName? (name : String) : Option Shape := ofNameWithin? (name.length + 1) name.toList

/-- Reads the shapes of a row: a list of them in parentheses, or how many nullable values. -/
def rowOfName? (name : String) : Option (List Shape) :=
  match name.toList with
  | '(' :: inner => do
    let inner ← Text.withoutClosing? ')' inner
    (Text.pieces '<' '>' inner).mapM fun cs => ofNameWithin? (name.length + 1) cs
  | 'a' :: 'n' :: 'y' :: count => (List.replicate · (optional any)) <$> Text.digits? count
  | _ => none

end Shape

end CqlClient
