import CqlClient.Bytes

/-!
Integers of any size, held as their shortest two's complement bytes, so that equal numbers are
equal values.
-/

namespace CqlClient

/-- Whether a first byte only repeats the sign of the second one. -/
def isRedundantSign (a b : UInt8) : Bool :=
  (a == 0x00 && b < 0x80) || (a == 0xFF && 0x80 ≤ b)

/-- Bytes that no shorter ones could replace. -/
def IsShortest : Bytes → Prop
  | [] => False
  | [_] => True
  | a :: b :: _ => isRedundantSign a b = false

/-- Drops the redundant sign bytes; no byte at all stands for zero. -/
def dropRedundantSigns : Bytes → Bytes
  | [] => [0]
  | [a] => [a]
  | a :: b :: rest =>
    if isRedundantSign a b then dropRedundantSigns (b :: rest) else a :: b :: rest

theorem isShortest_dropRedundantSigns (bytes : Bytes) :
    IsShortest (dropRedundantSigns bytes) := by
  fun_induction dropRedundantSigns bytes with
  | case1 => trivial
  | case2 => trivial
  | case3 a b rest h ih => exact ih
  | case4 a b rest h => simpa [IsShortest] using h

theorem dropRedundantSigns_eq_self {bytes : Bytes} (h : IsShortest bytes) :
    dropRedundantSigns bytes = bytes := by
  match bytes, h with
  | [_], _ => rfl
  | a :: b :: rest, h => simp_all [IsShortest, dropRedundantSigns]

structure Varint where
  bytes : Bytes
  shortest : IsShortest bytes

namespace Varint

instance : DecidableEq Varint := fun a b =>
  if h : a.bytes = b.bytes then .isTrue (by cases a; cases b; simpa using h)
  else .isFalse fun e => h (e ▸ rfl)

/-- The number written by two's complement bytes. -/
def ofBytes (bytes : Bytes) : Varint :=
  ⟨dropRedundantSigns bytes, isShortest_dropRedundantSigns bytes⟩

def toInt (v : Varint) : Int := v.bytes.toInt

/-- A width in bytes that holds a number and its sign. -/
def widthOf (n : Int) : Nat :=
  (if 0 ≤ n then n.toNat else (-n - 1).toNat).log2 / 8 + 2

def ofInt (n : Int) : Varint :=
  let width := widthOf n
  ofBytes (Bytes.ofNat width (n % 256 ^ width).toNat)

def ofInt64 (n : Int64) : Varint := ofBytes (Bytes.ofInt64 n)

/-- The number, if it fits 64 bits. -/
def toInt64? (v : Varint) : Option Int64 :=
  if v.bytes.length ≤ 8 then some (Int64.ofInt v.toInt) else none

theorem ofBytes_bytes (v : Varint) : ofBytes v.bytes = v := by
  cases v with
  | mk bytes shortest => simp [ofBytes, dropRedundantSigns_eq_self shortest]

end Varint

end CqlClient
