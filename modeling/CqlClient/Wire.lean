import CqlClient.Consistency
import CqlClient.Fault
import CqlClient.Text.Utf8

/-!
The notations that every frame body is made of: integers in network order, byte strings and
strings behind a length, lists and maps behind a count.
-/

namespace CqlClient

/-- Why bytes are not the notation that is read. -/
inductive WireFault where
  | endOfInput
  | nullBytes
  | text (fault : Utf8.Fault)
  | consistency
  /-- An integer does not fit the narrower type that is to hold it. -/
  | numberTooLarge | numberTooSmall
  deriving DecidableEq

def WireFault.message : WireFault → String
  | endOfInput => "unexpected end of file"
  | nullBytes => "Unexpected null bytes"
  | text fault => fault.message
  | consistency => "Invalid consistency"
  | numberTooLarge => "number too large to fit in target type"
  | numberTooSmall => "number too small to fit in target type"

def WireFault.label : WireFault → String
  | endOfInput => "Io.UnexpectedEof"
  | _ => "Io.InvalidData"

instance : Fault WireFault := ⟨WireFault.label, WireFault.message⟩

namespace Wire

abbrev WireReader := Reader WireFault

def raw (n : Nat) : WireReader Bytes := Reader.exactly .endOfInput n

def uint8 : WireReader UInt8 := return UInt8.ofNat (← raw 1).toNat
def uint16 : WireReader UInt16 := return (← raw 2).toUInt16
def uint32 : WireReader UInt32 := return (← raw 4).toUInt32
def int16 : WireReader Int16 := return (← raw 2).toInt16
def int32 : WireReader Int32 := return (← raw 4).toInt32
def boolean : WireReader Bool := return (← uint8) != 0

/-- A byte string behind a signed 32-bit length, null when the length is negative. -/
def optionalBytes : WireReader (Option Bytes) := do
  let length ← int32
  if length < 0 then return none else return some (← raw length.toInt.toNat)

/-- As `optionalBytes`, null being refused. -/
def bytes : WireReader Bytes := do
  match ← optionalBytes with
  | some bytes => return bytes
  | none => throw .nullBytes

/-- A byte string behind a 16-bit length. -/
def shortBytes : WireReader Bytes := do
  let length ← uint16
  raw length.toNat

/-- A text behind a 16-bit length. The bytes are consumed even if they are no text. -/
def string : WireReader String := do
  match Utf8.decode (← shortBytes) with
  | .ok text => return text
  | .error fault => throw (.text fault)

def consistency : WireReader AnyConsistency := do
  match AnyConsistency.ofCode? (← uint16) with
  | some level => return level
  | none => throw .consistency

/-- Items behind their 16-bit count. -/
def counted {α : Type} (item : WireReader α) : WireReader (List α) := do
  let count ← uint16
  Reader.times count.toNat item

def stringList : WireReader (List String) := counted string

def stringMultimap : WireReader (List (String × List String)) :=
  counted do return (← string, ← stringList)

def bytesMap : WireReader (List (String × Bytes)) := counted do return (← string, ← bytes)

def stringMap : WireReader (List (String × String)) := counted do return (← string, ← string)

end Wire

/-- A map as the list of its entries, in which a later entry of a key hides the earlier ones. -/
def lastEntries {κ α : Type} [BEq κ] : List (κ × α) → List (κ × α)
  | [] => []
  | (k, a) :: rest =>
    if rest.any (·.1 == k) then lastEntries rest else (k, a) :: lastEntries rest

/-- A length does not fit the prefix that announces it. -/
structure ValueTooLarge where
  size : Nat
  deriving DecidableEq

def ValueTooLarge.message (e : ValueTooLarge) : String :=
  "Value too large to be serialized (" ++ toString e.size ++ " bytes), maximum is 2GiB"

namespace Wire

def maxInt32 : Nat := 2 ^ 31 - 1
def maxUInt16 : Nat := 2 ^ 16 - 1

/-- The size of a byte string with a 32-bit length. -/
def sizeOfBytes (bytes : Bytes) : Except ValueTooLarge Nat :=
  let n := bytes.length
  if n ≤ maxInt32 then .ok (4 + n) else .error ⟨n⟩

/-- The size of a byte string with a 16-bit length. -/
def sizeOfShortBytes (bytes : Bytes) : Except ValueTooLarge Nat :=
  let n := bytes.length
  if n ≤ maxUInt16 then .ok (2 + n) else .error ⟨n⟩

def writeBytes (bytes : Bytes) : Bytes := Bytes.ofNat 4 bytes.length ++ bytes

def writeShortBytes (bytes : Bytes) : Bytes := Bytes.ofNat 2 bytes.length ++ bytes

def writeString (s : String) : Bytes := writeShortBytes (Utf8.encode s)

def sizeOfString (s : String) : Except ValueTooLarge Nat := sizeOfShortBytes (Utf8.encode s)

/-- The bytes behind their 32-bit length, unless they are too many. -/
def lengthPrefixed (bytes : Bytes) : Except ValueTooLarge Bytes :=
  let n := bytes.length
  if n ≤ maxInt32 then .ok (Bytes.ofNat 4 n ++ bytes) else .error ⟨n⟩

/-- How null is written in place of a byte string. -/
def null : Bytes := Bytes.ofInt32 (-1)

/-- How a value left unset is written in place of a byte string. -/
def unset : Bytes := Bytes.ofInt32 (-2)

end Wire

end CqlClient
