import CqlClient.Codec.Fault
import CqlClient.CqlType

/-!
The table that says which codec serves which type code. It may be overridden code by code, also
with what writes or reads the values of another code, or with one that writes the values of one
code and reads those of another.
-/

namespace CqlClient

/-- How the values of one kind of types are written, or read. -/
inductive Coding where
  | native (type : Native)
  | list | set | map | tuple | udt | vector
  deriving DecidableEq

namespace Coding

/-- The code of the types that a coding is made for. -/
def code : Coding → TypeCode
  | native type => .native type
  | list => .list
  | set => .set
  | map => .map
  | tuple => .tuple
  | udt => .udt
  | vector => .vector

/-- The coding that is made for a code; custom types have none. -/
def ofCode? : TypeCode → Option Coding
  | .native type => some (native type)
  | .varchar => some (native .text)
  | .list => some list
  | .set => some set
  | .map => some map
  | .tuple => some tuple
  | .udt => some udt
  | .vector => some vector
  | .custom => none

end Coding

/-- What serves a code: one coding for what is written and one for what is read. -/
structure Codec where
  encoder : Coding
  decoder : Coding

/-- The codec that is made for a code. -/
def Codec.ofCode? (code : TypeCode) : Option Codec := (Coding.ofCode? code).map fun c => ⟨c, c⟩

structure Registry where
  codec? : TypeCode → Option Codec

namespace Registry

def empty : Registry := ⟨fun _ => none⟩

/-- Every code but that of custom types has its own codec. -/
def standard : Registry := ⟨Codec.ofCode?⟩

/-- Serves `code` by `codec` from now on, whatever that writes and reads. -/
def register (r : Registry) (code : TypeCode) (codec : Codec) : Registry :=
  ⟨fun c => if c = code then some codec else r.codec? c⟩

/-- The codes that have a codec. -/
def registered (r : Registry) : List TypeCode := TypeCode.all.filter (r.codec? · |>.isSome)

/-- The codec of a code, the refusal naming the described type or else the code. -/
def codecFor (r : Registry) (code : TypeCode) (type : Option CqlType) :
    Except RegistryFault Codec :=
  match r.codec? code with
  | some codec => .ok codec
  | none => .error (.unsupportedType ((type.map (·.text)).getD code.name))

/-- How a value is written: by its described type, or else by what it is itself. -/
def encoder (r : Registry) (type : Option CqlType) (v : Value) : Except RegistryFault Coding :=
  (r.codecFor ((type.map (·.code)).getD v.code) type).map (·.encoder)

/-- How a code is read; codes of parametric types need the type. -/
def decoder (r : Registry) (code : TypeCode) (type : Option CqlType) :
    Except RegistryFault Coding := do
  let codec ← r.codecFor code type
  if code.isParametric && type.isNone then throw (.missingDescriptor code)
  return codec.decoder

theorem register_codec?_of_ne (r : Registry) {code other : TypeCode} (codec : Codec)
    (h : other ≠ code) : (r.register code codec).codec? other = r.codec? other := by
  simp [register, h]

end Registry

end CqlClient
