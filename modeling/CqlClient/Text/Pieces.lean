/-!
Trimming text, and cutting it at the commas that are outside of all brackets.
-/

namespace CqlClient.Text

/-- The characters of the Unicode property White_Space. -/
def isBlank (c : Char) : Bool :=
  (9 ≤ c.toNat && c.toNat ≤ 13) || (0x2000 ≤ c.toNat && c.toNat ≤ 0x200A) ||
    [0x20, 0x85, 0xA0, 0x1680, 0x2028, 0x2029, 0x202F, 0x205F, 0x3000].contains c.toNat

/-- Drops the blank characters at both ends. -/
def trimBlank (cs : List Char) : List Char :=
  ((cs.dropWhile isBlank).reverse.dropWhile isBlank).reverse

/-- The pieces between the outer commas, for one kind of brackets. A closing bracket without an
opening one changes nothing. `piece` holds the current piece in reverse. -/
def piecesFrom (opening closing : Char) : Nat → List Char → List Char → List (List Char)
  | _, piece, [] => [piece.reverse]
  | depth, piece, c :: cs =>
    if c = opening then piecesFrom opening closing (depth + 1) (c :: piece) cs
    else if c = closing then piecesFrom opening closing (depth - 1) (c :: piece) cs
    else if c = ',' && depth == 0 then piece.reverse :: piecesFrom opening closing depth [] cs
    else piecesFrom opening closing depth (c :: piece) cs

def pieces (opening closing : Char) (cs : List Char) : List (List Char) :=
  piecesFrom opening closing 0 [] cs

/-- The text before the first bracket, and what follows that bracket if there is one. -/
def splitOuter (opening : Char) (cs : List Char) : List Char × Option (List Char) :=
  match cs.dropWhile (· ≠ opening) with
  | [] => (cs, none)
  | _ :: inner => (cs.takeWhile (· ≠ opening), some inner)

/-- The text before a bracket that ends it. -/
def withoutClosing? (closing : Char) (cs : List Char) : Option (List Char) :=
  if cs.getLast? = some closing then some cs.dropLast else none

end CqlClient.Text
