import CqlClient.CqlType.ClassName

/-!
The binary form of types in column metadata: a code, then what the code calls for. Reading stops at
a depth limit, before anything of a deeper level is consumed.
-/

namespace CqlClient.Descriptor

abbrev TypeReader := Reader DescriptorFault

def wire {α : Type} (r : Wire.WireReader α) : TypeReader α := r.mapError .truncated

/-- Reads a field of a user type, its name first. -/
def readField (nested : TypeReader CqlType) : TypeReader (String × CqlType) := do
  return (← wire Wire.string, ← nested)

/-- Reads what follows the code of a type, given how the name of a class is read and the types of
the next level. -/
def readBody (readClass nested : TypeReader CqlType) (code : UInt16) : TypeReader CqlType :=
  match TypeCode.ofWire? code with
  | none => throw (.unknownCode code)
  | some .custom => readClass
  | some .list => return .list (← nested)
  | some .set => return .set (← nested)
  | some .map => return .map (← nested) (← nested)
  | some .tuple => do
    let count ← wire Wire.uint16
    return .tuple (← Reader.times count.toNat nested)
  | some .udt => do
    let keyspace ← wire Wire.string
    let name ← wire Wire.string
    let count ← wire Wire.uint16
    return .udt keyspace name (← Reader.times count.toNat (readField nested))
  | some other =>
    match other.toNative? with
    | some type => return .native type
    | none => throw (.unknownCode code)

/-- Reads a type; `room` levels may still be opened. How the name of a class is read depends on how
many levels that leaves. -/
def readWith (readClass : Nat → TypeReader CqlType) (limit : Nat) : Nat → TypeReader CqlType
  | 0 => throw (.depthExceeded limit)
  | room + 1 => do
    let code ← wire Wire.uint16
    readBody (readClass room) (readWith readClass limit room) code

/-- Reads the name of a class, whose parameters may open `room` levels. -/
def readClass (limit room : Nat) : TypeReader CqlType := do
  let className ← wire Wire.string
  Reader.ofExcept (ClassName.parseWithin limit (room + 1) className.toList)

/-- Reads a type that is nested at most `limit` deep. -/
def read (limit : Nat) : TypeReader CqlType := readWith (readClass limit) limit (limit + 1)

end CqlClient.Descriptor
