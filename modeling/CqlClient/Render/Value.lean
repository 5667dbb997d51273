import CqlClient.Conversion
import CqlClient.CqlType
import CqlClient.Render.Tree

/-!
How types and values are shown: under the name of their kind. Floating point numbers are shown as
their bytes, so that no bit is lost.
-/

namespace CqlClient

open CqlClient.Tree (field)

mutual

def CqlType.tree : CqlType → Tree
  | .native type => .text type.name
  | .custom className => .record [field "custom" className]
  | .list element => .record [field "list" element.tree]
  | .set element => .record [field "set" element.tree]
  | .map key value => .record [field "map" (key.tree, value.tree)]
  | .tuple elements => .record [field "tuple" (typeTrees elements [])]
  | .udt keyspace name types =>
    .record [field "udt" (Tree.record [field "keyspace" keyspace, field "name" name,
      field "fields" (fieldTypeTrees types [])])]
  | .vector element dimensions => .record [field "vector" (element.tree, dimensions)]

def typeTrees : List CqlType → List Tree → List Tree
  | [], done => done.reverse
  | type :: types, done => typeTrees types (type.tree :: done)

def fieldTypeTrees : List (String × CqlType) → List Tree → List Tree
  | [], done => done.reverse
  | (name, type) :: types, done => fieldTypeTrees types (render (name, type.tree) :: done)

end

instance : Render CqlType := ⟨CqlType.tree⟩

/-- All that is known of a type without a value of it. -/
def CqlType.facts (type : CqlType) : List Tree.Field :=
  let parts := match type with
    | .tuple elements => elements
    | _ => []
  let types := match type with
    | .udt _ _ types => types
    | _ => []
  [field "type" type, field "display" type.text, field "code" type.code.name,
    field "wire_code" type.code.wireCode, field "parametric" type.code.isParametric,
    field "empty_encoding" type.code.hasEmptyEncoding,
    field "native" (type.code.toNative?.map (·.name)), field "child_count" type.childCount,
    field "fixed_size" type.fixedSize,
    field "element" (type.element?.map (·.text)),
    field "map" (type.mapTypes?.map fun (k, v) => (k.text, v.text)),
    field "tuple" (parts.map (·.text)), field "udt" (types.map fun (f, t) => (f, t.text))]

instance : Render (Octets 16) := ⟨fun octets => render octets.1⟩

instance : Render IpAddress := ⟨fun address => render address.bytes⟩

instance : Render Varint := ⟨fun n => render n.bytes⟩

instance : Render Decimal := ⟨fun d => render (d.unscaled, d.scale)⟩

instance : Render Duration :=
  ⟨fun d => .tuple [render d.months, render d.days, render d.nanoseconds]⟩

mutual

def Value.tree : Value → Tree
  | .ascii s => .record [field "ascii" s]
  | .bigint n => .record [field "bigint" n]
  | .blob bytes => .record [field "blob" bytes]
  | .boolean b => .record [field "boolean" b]
  | .counter n => .record [field "counter" n]
  | .date day => .record [field "date" day]
  | .decimal d => .record [field "decimal" d]
  | .double bits => .record [field "double" (Bytes.ofUInt64 bits)]
  | .duration d => .record [field "duration" d]
  | .float bits => .record [field "float" (Bytes.ofUInt32 bits)]
  | .inet address => .record [field "inet" address]
  | .int n => .record [field "int" n]
  | .list elements => .record [field "list" (valueTrees elements [])]
  | .map entries => .record [field "map" (entryTrees entries [])]
  | .set elements => .record [field "set" (valueTrees elements [])]
  | .smallint n => .record [field "smallint" n]
  | .text s => .record [field "text" s]
  | .time n => .record [field "time" n]
  | .timestamp n => .record [field "timestamp" n]
  | .timeuuid id => .record [field "timeuuid" id]
  | .tinyint n => .record [field "tinyint" n]
  | .tuple elements => .record [field "tuple" (nullableTrees elements [])]
  | .udt keyspace name fields =>
    .record [field "udt" (Tree.record [field "keyspace" keyspace, field "name" name,
      field "fields" (fieldTrees fields [])])]
  | .uuid id => .record [field "uuid" id]
  | .varint n => .record [field "varint" n]
  | .vector elements => .record [field "vector" (valueTrees elements [])]

def valueTrees : List Value → List Tree → List Tree
  | [], done => done.reverse
  | v :: vs, done => valueTrees vs (v.tree :: done)

def entryTrees : List (Value × Value) → List Tree → List Tree
  | [], done => done.reverse
  | (k, v) :: entries, done => entryTrees entries (render (k.tree, v.tree) :: done)

def nullableTrees : List (Option Value) → List Tree → List Tree
  | [], done => done.reverse
  | none :: vs, done => nullableTrees vs (.null :: done)
  | some v :: vs, done => nullableTrees vs (v.tree :: done)

def fieldTrees : List (String × Option Value) → List Tree → List Tree
  | [], done => done.reverse
  | (name, none) :: fields, done => fieldTrees fields (render (name, Tree.null) :: done)
  | (name, some v) :: fields, done => fieldTrees fields (render (name, v.tree) :: done)

end

instance : Render Value := ⟨Value.tree⟩

instance : Render CalendarDate := ⟨fun d => .tuple [render d.year, render d.month, render d.day]⟩

/-- The parts of a time of day down to whole seconds. -/
def ClockTime.parts (t : ClockTime) : List Nat := [t.hour, t.minute, t.second]

/-- What programs hold, shown like the values that it stands for. -/
def Plain.tree : (p : Plain) → p.Host → Tree
  | boolean, b => .bool b
  | int8, n => .number n.toInt
  | int16, n => .number n.toInt
  | int32, n => .number n.toInt
  | int64, n | timeOfDay, n | timestamp, n => .wide n.toInt
  | float32, bits => render (Bytes.ofUInt32 bits)
  | float64, bits => render (Bytes.ofUInt64 bits)
  | string, s => .text s
  | bytes, content => .text (Bytes.hexText content)
  | id, octets => render octets.1
  | address, a => render a.bytes
  | day, n => .number n.toNat
  | duration, d => render (α := Duration) d
  | decimal, d => render (α := Decimal) d
  | varint, n => render n.bytes
  | date, d => render (α := CalendarDate) d
  | clock, t => render (t.parts ++ [t.nanosecond])
  | instant, i =>
    .list ([render i.date.year, render i.date.month, render i.date.day] ++
      i.time.parts.map render ++ [render (i.nanosecond / 10 ^ 6)])
  | integer, n => .wide n
  | fraction, (unscaled, scale) => .tuple [.wide unscaled, .wide scale]

def Shape.tree : (shape : Shape) → shape.Host → Tree
  | plain p, a => p.tree a
  | any, v => Value.tree v
  | optional _, none => .null
  | optional shape, some a => shape.tree a
  | list element, as => .list (as.map element.tree)
  | map key value, as => .list (as.map fun (k, v) => .tuple [key.tree k, value.tree v])

instance : Render Datum := ⟨fun d => d.shape.tree d.host⟩

end CqlClient
