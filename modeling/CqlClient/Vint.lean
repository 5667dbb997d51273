import CqlClient.Wire

/-!
Integers of variable length. The leading ones of the first byte count the bytes that follow it, so
a number takes as few bytes as it needs; signed ones alternate around zero first.
-/

namespace CqlClient.Vint

/-- How many bytes follow the first one. -/
def extraBytes (n : Nat) : Nat := min (n.log2 / 7) 8

def writeUnsigned (v : UInt64) : Bytes :=
  let extra := extraBytes v.toNat
  if extra = 8 then 0xFF :: Bytes.ofNat 8 v.toNat
  else Bytes.ofNat (extra + 1) ((256 - 2 ^ (8 - extra)) * 256 ^ extra + v.toNat)

def leadingOnes (b : UInt8) : Nat := if b = 0xFF then 8 else 7 - (255 - b.toNat).log2

def readUnsigned : Wire.WireReader UInt64 := do
  let first ← Wire.uint8
  let extra := leadingOnes first
  let low ← Wire.raw extra
  return UInt64.ofNat ((first.toNat % 2 ^ (8 - extra)) * 256 ^ extra + low.toNat)

/-- Zero, minus one, one, minus two and so on become zero, one, two, three and so on. -/
def zigzag (v : Int64) : UInt64 :=
  let n := v.toInt
  UInt64.ofNat (if 0 ≤ n then 2 * n.toNat else 2 * (-n).toNat - 1)

def unzigzag (u : UInt64) : Int64 :=
  let n := u.toNat
  Int64.ofInt (if n % 2 = 0 then (n / 2 : Nat) else -((n / 2 : Nat) : Int) - 1)

def write (v : Int64) : Bytes := writeUnsigned (zigzag v)

def read : Wire.WireReader Int64 := return unzigzag (← readUnsigned)

end CqlClient.Vint
