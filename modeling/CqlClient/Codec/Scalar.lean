import CqlClient.Codec.Fault
import CqlClient.Vint

/-!
The encodings of native types. Each accepts the values of one kind, and of the kinds that share
its form.
-/

namespace CqlClient.Scalar

def mismatch {α : Type} (expected : Native) (found : Value) : Except EncodeFault α :=
  .error (.typeMismatch (.native expected) found.kind)

def isAscii (text : String) : Bool := text.toList.all (·.toNat < 128)

def isTimeOfDay (nanoseconds : Int64) : Bool :=
  0 ≤ nanoseconds && nanoseconds < nanosecondsPerDay

/-- A counter is written as a 64-bit integer and a time-based id as any other id; refusals name the
type whose form it is. -/
def encode : Native → Value → Except EncodeFault Bytes
  | .tinyint, .tinyint n => .ok (Bytes.ofInt8 n)
  | .smallint, .smallint n => .ok (Bytes.ofInt16 n)
  | .int, .int n => .ok (Bytes.ofInt32 n)
  | .bigint, .bigint n | .bigint, .counter n | .counter, .bigint n | .counter, .counter n =>
    .ok (Bytes.ofInt64 n)
  | .counter, v => mismatch .bigint v
  | .float, .float bits => .ok (Bytes.ofUInt32 bits)
  | .double, .double bits => .ok (Bytes.ofUInt64 bits)
  | .boolean, .boolean b => .ok [if b then 1 else 0]
  | .blob, .blob bytes => .ok bytes
  | .text, .text s | .text, .ascii s => .ok (Utf8.encode s)
  | .ascii, .ascii s => if isAscii s then .ok (Utf8.encode s) else mismatch .ascii (.ascii s)
  | .ascii, .text s => if isAscii s then .ok (Utf8.encode s) else mismatch .ascii (.text s)
  | .uuid, .uuid id | .uuid, .timeuuid id | .timeuuid, .uuid id | .timeuuid, .timeuuid id =>
    .ok id.1
  | .timeuuid, v => mismatch .uuid v
  | .inet, .inet address => .ok address.bytes
  | .date, .date day => .ok (Bytes.ofUInt32 day)
  | .time, .time n => if isTimeOfDay n then .ok (Bytes.ofInt64 n) else mismatch .time (.time n)
  | .timestamp, .timestamp n => .ok (Bytes.ofInt64 n)
  | .varint, .varint n => .ok n.bytes
  | .decimal, .decimal d => .ok (Bytes.ofInt32 d.scale ++ d.unscaled.bytes)
  | .duration, .duration d =>
    .ok (Vint.write d.months.toInt64 ++ Vint.write d.days.toInt64 ++ Vint.write d.nanoseconds)
  | type, v => mismatch type v

/-- The bytes, if there are as many as the type takes. -/
def exactly (size : Nat) (type : Native) (bytes : Bytes) : Except DecodeFault (Octets size) :=
  if h : bytes.length = size then .ok ⟨bytes, h⟩
  else .error (.invalid (.wrongLength size (TypeCode.native type).name bytes.length))

def wire {α : Type} (r : Wire.WireReader α) : Reader DecodeFault α :=
  r.mapError fun fault => .invalid (.wire fault)

def nothingLeft (what : String) : Reader DecodeFault Unit := do
  let rest ← Reader.rest
  if !rest.isEmpty then throw (.invalid (.trailing rest.length what))

def text (bytes : Bytes) : Except DecodeFault String :=
  (Utf8.decode bytes).mapError fun fault => .invalid (.wire (.text fault))

def narrow (n : Int64) : Reader DecodeFault Int32 :=
  if n.toInt < Int32.minValue.toInt then throw (.invalid (.wire .numberTooSmall))
  else if Int32.maxValue.toInt < n.toInt then throw (.invalid (.wire .numberTooLarge))
  else return n.toInt32

def duration : Reader DecodeFault Duration := do
  let months ← wire Vint.read
  let days ← wire Vint.read
  let nanoseconds ← wire Vint.read
  nothingLeft "duration"
  return ⟨← narrow months, ← narrow days, nanoseconds⟩

def decode : Native → Bytes → Except DecodeFault Value
  | .tinyint, bytes => return .tinyint (← exactly 1 .tinyint bytes).1.toInt8
  | .smallint, bytes => return .smallint (← exactly 2 .smallint bytes).1.toInt16
  | .int, bytes => return .int (← exactly 4 .int bytes).1.toInt32
  | .bigint, bytes => return .bigint (← exactly 8 .bigint bytes).1.toInt64
  | .counter, bytes => return .counter (← exactly 8 .counter bytes).1.toInt64
  | .float, bytes => return .float (← exactly 4 .float bytes).1.toUInt32
  | .double, bytes => return .double (← exactly 8 .double bytes).1.toUInt64
  | .boolean, bytes => return .boolean ((← exactly 1 .boolean bytes).1 != [0])
  | .blob, bytes => return .blob bytes
  | .text, bytes => return .text (← text bytes)
  | .ascii, bytes =>
    if bytes.all (· < 128) then return .ascii (← text bytes) else throw (.invalid .nonAscii)
  | .uuid, bytes => return .uuid (← exactly 16 .uuid bytes)
  | .timeuuid, bytes => return .timeuuid (← exactly 16 .timeuuid bytes)
  | .inet, bytes =>
    match Octets.ofBytes? 4 bytes, Octets.ofBytes? 16 bytes with
    | some octets, _ => return .inet (.v4 octets)
    | none, some octets => return .inet (.v6 octets)
    | none, none => throw (.invalid (.inetLength bytes.length))
  | .date, bytes => return .date (← exactly 4 .date bytes).1.toUInt32
  | .time, bytes => do
    let n := (← exactly 8 .time bytes).1.toInt64
    if isTimeOfDay n then return .time n else throw (.invalid (.timeOutOfDay n))
  | .timestamp, bytes => return .timestamp (← exactly 8 .timestamp bytes).1.toInt64
  | .varint, bytes =>
    if bytes.isEmpty then throw (.invalid .emptyVarint) else return .varint (.ofBytes bytes)
  | .decimal, bytes =>
    if bytes.length < 5 then throw (.invalid (.shortDecimal bytes.length))
    else return .decimal ⟨.ofBytes (bytes.drop 4), Bytes.toInt32 (bytes.take 4)⟩
  | .duration, bytes => return .duration (← duration.outcome bytes)

end CqlClient.Scalar
