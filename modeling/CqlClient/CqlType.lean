import CqlClient.Fault
import CqlClient.TypeCode

/-!
Types of CQL values, as column metadata describes them.
-/

namespace CqlClient

inductive CqlType where
  | native (type : Native)
  /-- A server-side class that is not described any further. -/
  | custom (className : String)
  | list (element : CqlType)
  | set (element : CqlType)
  | map (key value : CqlType)
  | tuple (elements : List CqlType)
  | udt (keyspace name : String) (fields : List (String × CqlType))
  | vector (element : CqlType) (dimensions : UInt16)
  deriving Inhabited

namespace CqlType

def code : CqlType → TypeCode
  | native type => .native type
  | custom _ => .custom
  | list _ => .list
  | set _ => .set
  | map .. => .map
  | tuple _ => .tuple
  | udt .. => .udt
  | vector .. => .vector

/-- The element type of a list, a set or a vector. -/
def element? : CqlType → Option CqlType
  | list element | set element | vector element _ => some element
  | _ => none

def mapTypes? : CqlType → Option (CqlType × CqlType)
  | map key value => some (key, value)
  | _ => none

def tupleElement? (type : CqlType) (index : Nat) : Option CqlType :=
  match type with
  | tuple elements => elements[index]?
  | _ => none

/-- The number of types that a type is directly built from. -/
def childCount : CqlType → Nat
  | native _ | custom _ => 0
  | list _ | set _ | vector .. => 1
  | map .. => 2
  | tuple elements => elements.length
  | udt _ _ fields => fields.length

end CqlType

/-- The encoded size of every value of a native type, if it does not vary. -/
def Native.fixedSize : Native → Option Nat
  | boolean | tinyint => some 1
  | smallint => some 2
  | int | float | date => some 4
  | bigint | counter | double | time | timestamp => some 8
  | uuid | timeuuid => some 16
  | ascii | blob | decimal | duration | text | varint | inet => none

namespace CqlType

/-- The encoded size of every value of a type, if it does not vary. The sizes of nested vectors are
multiplied in a word. -/
def fixedSize : CqlType → Except Panic (Option Nat)
  | native type => .ok type.fixedSize
  | vector element dimensions =>
    match element.fixedSize with
    | .ok (some size) => (checkedMul size dimensions.toNat).map some
    | unsized => unsized
  | _ => .ok none

mutual

/-- A type as CQL writes it, custom classes between quotes. -/
def text : CqlType → String
  | native type => type.name
  | custom className => "'" ++ className ++ "'"
  | list element => "list<" ++ element.text ++ ">"
  | set element => "set<" ++ element.text ++ ">"
  | map key value => "map<" ++ key.text ++ ", " ++ value.text ++ ">"
  | tuple elements => "tuple<" ++ ", ".intercalate (texts elements) ++ ">"
  | udt keyspace name _ => keyspace ++ "." ++ name
  | vector element dimensions =>
    "vector<" ++ element.text ++ ", " ++ toString dimensions.toNat ++ ">"

def texts : List CqlType → List String
  | [] => []
  | type :: types => type.text :: texts types

end

end CqlType

end CqlClient
