import CqlClient.Codec.Scalar
import CqlClient.Registry

/-!
Values to bytes, by described type or by what the values are themselves. Elements of lists, sets
and maps follow a count, each behind its length; fields of tuples and user types stand alone, null
having its own length; elements of vectors are bare when their size is fixed, and behind a vint
otherwise.
-/

namespace CqlClient

/-- What a container puts around the encoding of one of its elements. -/
abbrev Framing := Value → Bytes → Except EncodeFault Bytes

namespace Framing

def sized : Framing := fun _ bytes => (Wire.lengthPrefixed bytes).mapError .tooLarge

/-- A length in front that takes as few bytes as it needs, up to 64 bits. -/
def vintSized : Framing := fun _ bytes =>
  let n := bytes.length
  if n < UInt64.size then .ok (Vint.writeUnsigned (UInt64.ofNat n) ++ bytes)
  else .error (.tooLarge ⟨n⟩)

/-- Nothing around the encoding, which has to be of the fixed size. -/
def bare (size : Nat) : Framing := fun v bytes =>
  if bytes.length = size then .ok bytes else .error (.typeMismatch .vector v.kind)

end Framing

namespace Codec

def count (n : Nat) : Except EncodeFault Bytes :=
  if n ≤ Wire.maxInt32 then .ok (Bytes.ofNat 4 n) else .error (.tooLarge ⟨n⟩)

/-- The element type of a vector: the described one, or else the native type of its first
element. -/
def vectorElement (type : Option CqlType) (elements : List Value) :
    Except EncodeFault (Option CqlType) :=
  match type with
  | some (.vector element dimensions) =>
    if elements.length = dimensions.toNat then .ok (some element)
    else .error (.wrongElementCount dimensions.toNat elements.length)
  | _ => .ok (elements.head?.bind (·.code.toNative?) |>.map .native)

/-- The size of the elements of a vector, if their type is known and fixes it. -/
def elementSize (element : Option CqlType) : Except EncodeFault (Option Nat) :=
  match element with
  | some type => type.fixedSize.mapError .panic
  | none => .ok none

def vectorFraming (size : Option Nat) : Framing :=
  match size with
  | some size => .bare size
  | none => .vintSized

def checkTupleWidth (type : Option CqlType) (width : Nat) : Except EncodeFault Unit :=
  match type with
  | some (.tuple types) =>
    if types.length = width then .ok () else .error (.wrongElementCount types.length width)
  | _ => .ok ()

/-- The first field of a value that its type does not declare. -/
def undeclared? (types : List (String × CqlType)) (fields : List (String × Option Value)) :
    Option String :=
  (fields.find? fun (name, _) => !types.any (·.1 == name)).map (·.1)

/-- Writers of fields, by name. -/
abbrev FieldWriters := List (String × (Option CqlType → Except EncodeFault Bytes))

/-- Every field with its name's first writer, in declared order; one without a writer is null. -/
def writeDeclared (writers : FieldWriters) : List (String × CqlType) → List Bytes →
    Except EncodeFault Bytes
  | [], done => .ok done.reverse.flatten
  | (name, type) :: types, done =>
    match writers.lookup name with
    | none => writeDeclared writers types (Wire.null :: done)
    | some write => do
      let field ← write (some type)
      writeDeclared writers types (field :: done)

/-- Every field, in its own order. -/
def writeUndeclared : FieldWriters → List Bytes → Except EncodeFault Bytes
  | [], done => .ok done.reverse.flatten
  | (_, write) :: writers, done => do
    let field ← write none
    writeUndeclared writers (field :: done)

end Codec

open Codec

mutual

/-- The bytes that a coding gives a value of a type. -/
def encodeWith (r : Registry) : Value → Coding → Option CqlType → Except EncodeFault Bytes
  | v, .native scalar, _ => Scalar.encode scalar v
  | .list elements, .list, type | .list elements, .set, type
  | .set elements, .list, type | .set elements, .set, type => do
    let front ← count elements.length
    let rest ← encodeEach r (type.bind CqlType.element?) .sized elements []
    return front ++ rest
  | .map entries, .map, type => do
    let front ← count entries.length
    let types := type.bind CqlType.mapTypes?
    let rest ← encodeEntries r (types.map (·.1)) (types.map (·.2)) entries []
    return front ++ rest
  | .tuple elements, .tuple, type => do
    checkTupleWidth type elements.length
    encodeTuple r type 0 elements []
  | .udt _ _ fields, .udt, type =>
    match type with
    | some (.udt _ typeName types) =>
      match undeclared? types fields with
      | some field => .error (.unknownField typeName field)
      | none => writeDeclared (fieldWriters r fields) types []
    | _ => writeUndeclared (fieldWriters r fields) []
  | .vector elements, .vector, type | .list elements, .vector, type => do
    let element ← vectorElement type elements
    let size ← elementSize element
    encodeEach r element (vectorFraming size) elements []
  | v, coding, _ => .error (.typeMismatch coding.code v.kind)

/-- The framed encodings of values of one type, after those already `done`. -/
def encodeEach (r : Registry) (type : Option CqlType) (framing : Framing) :
    List Value → List Bytes → Except EncodeFault Bytes
  | [], done => .ok done.reverse.flatten
  | v :: vs, done =>
    match r.encoder type v with
    | .error fault => .error (.registry fault)
    | .ok coding => do
      let framed ← framing v (← encodeWith r v coding type)
      encodeEach r type framing vs (framed :: done)

def encodeEntries (r : Registry) (keyType valueType : Option CqlType) :
    List (Value × Value) → List Bytes → Except EncodeFault Bytes
  | [], done => .ok done.reverse.flatten
  | (k, v) :: entries, done =>
    match r.encoder keyType k with
    | .error fault => .error (.registry fault)
    | .ok keyCoding => do
      let key ← Framing.sized k (← encodeWith r k keyCoding keyType)
      match r.encoder valueType v with
      | .error fault => .error (.registry fault)
      | .ok valueCoding => do
        let value ← Framing.sized v (← encodeWith r v valueCoding valueType)
        encodeEntries r keyType valueType entries ((key ++ value) :: done)

def encodeTuple (r : Registry) (type : Option CqlType) :
    Nat → List (Option Value) → List Bytes → Except EncodeFault Bytes
  | _, [], done => .ok done.reverse.flatten
  | index, none :: vs, done => encodeTuple r type (index + 1) vs (Wire.null :: done)
  | index, some v :: vs, done =>
    let element := type.bind (·.tupleElement? index)
    match r.encoder element v with
    | .error fault => .error (.registry fault)
    | .ok coding => do
      let framed ← Framing.sized v (← encodeWith r v coding element)
      encodeTuple r type (index + 1) vs (framed :: done)

def fieldWriters (r : Registry) : List (String × Option Value) → FieldWriters
  | [] => []
  | (name, none) :: fields => (name, fun _ => .ok Wire.null) :: fieldWriters r fields
  | (name, some v) :: fields =>
    (name, fun type =>
      match r.encoder type v with
      | .error fault => .error (.registry fault)
      | .ok coding => do Framing.sized v (← encodeWith r v coding type)) :: fieldWriters r fields

end

namespace Registry

/-- The encoding of a value, by its described type or else by what it is itself. -/
def encode (r : Registry) (v : Value) (type : Option CqlType) : Except EncodeFault Bytes :=
  match r.encoder type v with
  | .error fault => .error (.registry fault)
  | .ok coding => encodeWith r v coding type

/-- The encoding behind its length, or the mark of null. -/
def encodeSized (r : Registry) (v : Option Value) (type : Option CqlType) :
    Except EncodeFault Bytes :=
  match v with
  | none => .ok Wire.null
  | some v => do Framing.sized v (← r.encode v type)

end Registry

end CqlClient
