/-!
Numbers in text: strict decimal readers and hexadecimal printing.
-/

namespace CqlClient.Text

def digitValue (c : Char) : Nat := c.toNat - '0'.toNat

/-- The number written by one or more ASCII digits. -/
def digits? (cs : List Char) : Option Nat :=
  if cs.isEmpty || !cs.all Char.isDigit then none
  else some (cs.foldl (fun n c => n * 10 + digitValue c) 0)

/-- A number up to `max`: digits after at most one plus sign. -/
def unsigned? (max : Nat) (cs : List Char) : Option Nat :=
  let n := match cs with
    | '+' :: rest => digits? rest
    | _ => digits? cs
  n.filter (· ≤ max)

/-- A number from `min` to `max`: digits after at most one sign. -/
def signed? (min max : Int) (cs : List Char) : Option Int :=
  let n : Option Int := match cs with
    | '+' :: rest => (digits? rest).map Int.ofNat
    | '-' :: rest => (digits? rest).map fun n => -Int.ofNat n
    | _ => (digits? cs).map Int.ofNat
  n.filter fun n => min ≤ n && n ≤ max

def uint8? (s : String) : Option UInt8 := (unsigned? 0xFF s.toList).map UInt8.ofNat
def uint16? (s : String) : Option UInt16 := (unsigned? 0xFFFF s.toList).map UInt16.ofNat

def int32? (s : String) : Option Int32 :=
  (signed? (-2 ^ 31) (2 ^ 31 - 1) s.toList).map Int32.ofInt

def bool? : String → Option Bool
  | "true" => some true
  | "false" => some false
  | _ => none

/-- Lower-case hexadecimal with at least `width` digits. -/
def hexDigits (width n : Nat) : String :=
  let cs := Nat.toDigits 16 n
  String.ofList (List.replicate (width - cs.length) '0' ++ cs)

/-- As `hexDigits`, after the mark of hexadecimal numbers. -/
def hex (width n : Nat) : String := "0x" ++ hexDigits width n

end CqlClient.Text
