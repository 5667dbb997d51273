import CqlClient.Codec.Scalar
import CqlClient.Registry

/-!
Bytes to values, by described type. Every container has to use up its bytes; fields that a user
type got after the value was written are missing at the end and read as null.
-/

namespace CqlClient

open Scalar (wire nothingLeft)

namespace Codec

/-- The decoding of one part of a container. -/
abbrev PartDecoder := Bytes → Except DecodeFault Value

def readCount : Reader DecodeFault Nat := do
  let n ← wire Wire.int32
  if n < 0 then throw (.invalid (.negativeCount n)) else return n.toInt.toNat

/-- An element behind its length, which is never null. -/
def readElement (decode : PartDecoder) : Reader DecodeFault Value := do
  match ← wire Wire.optionalBytes with
  | some bytes => Reader.ofExcept (decode bytes)
  | none => throw .nullElement

/-- A field behind its length, or null. -/
def readField (decode : PartDecoder) : Reader DecodeFault (Option Value) := do
  match ← wire Wire.optionalBytes with
  | some bytes => return some (← Reader.ofExcept (decode bytes))
  | none => return none

/-- A field as `readField` reads it, or null when nothing is left. -/
def readLateField (decode : PartDecoder) : Reader DecodeFault (Option Value) := do
  if (← Reader.rest).isEmpty then return none else readField decode

def elements (decode : PartDecoder) : Reader DecodeFault (List Value) := do
  let n ← readCount
  let values ← Reader.times n (readElement decode)
  nothingLeft "collection"
  return values

def entries (decodeKey decodeValue : PartDecoder) : Reader DecodeFault (List (Value × Value)) := do
  let n ← readCount
  let pairs ← Reader.times n do return (← readElement decodeKey, ← readElement decodeValue)
  nothingLeft "map"
  return pairs

/-- An element of a vector: bare if its size is fixed, else behind its length. -/
def readComponent (fixedSize : Option Nat) (decode : PartDecoder) : Reader DecodeFault Value := do
  let size ← match fixedSize with
    | some size => pure size
    | none => UInt64.toNat <$> wire Vint.readUnsigned
  Reader.ofExcept (decode (← wire (Wire.raw size)))

def components (dimensions : Nat) (fixedSize : Option Nat) (decode : PartDecoder) :
    Reader DecodeFault (List Value) := do
  let values ← Reader.times dimensions (readComponent fixedSize decode)
  nothingLeft "vector"
  return values

end Codec

/-- Decodes as a type is read, given what each coding makes of the bytes. -/
def Registry.dispatch (r : Registry) (type : CqlType)
    (decodeBy : Coding → Bytes → Except DecodeFault Value) : Codec.PartDecoder := fun bytes =>
  match r.decoder type.code (some type) with
  | .error fault => .error (.registry fault)
  | .ok coding => decodeBy coding bytes

open Codec

/-- What a coding makes of bytes without any described type. -/
def decodeUntyped (coding : Coding) (bytes : Bytes) : Except DecodeFault Value :=
  match coding with
  | .native type => Scalar.decode type bytes
  | other => .error (.registry (.missingDescriptor other.code))

mutual

/-- What a coding makes of bytes of a type. -/
def decodeWith (r : Registry) : CqlType → Coding → Bytes → Except DecodeFault Value
  | _, .native scalar, bytes => Scalar.decode scalar bytes
  | .list element, .list, bytes | .set element, .list, bytes | .vector element _, .list, bytes =>
    return .list (← (elements (r.dispatch element (decodeWith r element))).outcome bytes)
  | .list element, .set, bytes | .set element, .set, bytes | .vector element _, .set, bytes =>
    return .set (← (elements (r.dispatch element (decodeWith r element))).outcome bytes)
  | .map key value, .map, bytes => do
    let read := entries (r.dispatch key (decodeWith r key)) (r.dispatch value (decodeWith r value))
    return .map (← read.outcome bytes)
  | .tuple types, .tuple, bytes => return .tuple (← (decodeTuple r types []).outcome bytes)
  | .udt keyspace name types, .udt, bytes =>
    return .udt keyspace name (← (decodeFields r types []).outcome bytes)
  | .vector element dimensions, .vector, bytes => do
    let size ← element.fixedSize.mapError .panic
    let part := r.dispatch element (decodeWith r element)
    return .vector (← (components dimensions.toNat size part).outcome bytes)
  | _, coding, _ => .error (.registry (.missingDescriptor coding.code))

def decodeTuple (r : Registry) : List CqlType → List (Option Value) →
    Reader DecodeFault (List (Option Value))
  | [], done => do
    nothingLeft "tuple"
    return done.reverse
  | type :: types, done => do
    let field ← readField (r.dispatch type (decodeWith r type))
    decodeTuple r types (field :: done)

def decodeFields (r : Registry) : List (String × CqlType) → List (String × Option Value) →
    Reader DecodeFault (List (String × Option Value))
  | [], done => do
    nothingLeft "udt"
    return done.reverse
  | (name, type) :: types, done => do
    let field ← readLateField (r.dispatch type (decodeWith r type))
    decodeFields r types ((name, field) :: done)

end

namespace Registry

def decode (r : Registry) (type : CqlType) (bytes : Bytes) : Except DecodeFault Value :=
  r.dispatch type (decodeWith r type) bytes

end Registry

end CqlClient
