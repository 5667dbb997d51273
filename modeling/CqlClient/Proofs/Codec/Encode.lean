import CqlClient.Codec.Encode
import CqlClient.Proofs.CqlType.Size
import CqlClient.Proofs.Outcome

/-!
# What containers write

The encoder of a container goes through its parts with what is already written in hand. The
equations here say what that comes to: the encodings of the parts, each of them made by
`Registry.encode` and framed, in a row.

* `encodeEach_eq`: elements of lists, sets and vectors;
* `encodeEntries_eq`, `encodeTuple_eq`, `writeDeclared_eq`: entries of maps, fields of tuples and of
  user types.
-/

namespace CqlClient

open Codec

variable (r : Registry)

/-- The encoding of an element with what its container puts around it. -/
def Registry.encodeFramed (framing : Framing) (type : Option CqlType) (v : Value) :
    Except EncodeFault Bytes := do
  framing v (← r.encode v type)

/-- An entry of a map: its key, then its value. -/
def Registry.encodeEntry (keyType valueType : Option CqlType) (entry : Value × Value) :
    Except EncodeFault Bytes := do
  let key ← r.encodeFramed .sized keyType entry.1
  let value ← r.encodeFramed .sized valueType entry.2
  return key ++ value

theorem encodeSized_some (v : Value) (type : Option CqlType) :
    r.encodeSized (some v) type = r.encodeFramed .sized type v := rfl

/-! ## Elements -/

theorem encodeEach_cons (type : Option CqlType) (framing : Framing) (v : Value) (vs : List Value)
    (done : List Bytes) :
    encodeEach r type framing (v :: vs) done = (do
      let part ← r.encodeFramed framing type v
      encodeEach r type framing vs (part :: done)) := by
  rw [encodeEach, Registry.encodeFramed, Registry.encode]
  cases r.encoder type v with
  | error fault => rfl
  | ok codec => exact (bind_assoc _ _ _).symm

/-- The parts of a container in a row, after what is already written. -/
theorem accumulate {α : Type} {write : α → Except EncodeFault Bytes}
    {go : List α → List Bytes → Except EncodeFault Bytes}
    (hnil : ∀ done, go [] done = .ok done.reverse.flatten)
    (hcons : ∀ a as done, go (a :: as) done = write a >>= fun part => go as (part :: done))
    (as : List α) (done : List Bytes) :
    go as done = (fun parts => done.reverse.flatten ++ parts.flatten) <$> as.mapM write := by
  induction as generalizing done with
  | nil => simp [hnil, pure, Except.pure, Functor.map, Except.map]
  | cons a as ih =>
    rw [hcons, List.mapM_cons, map_bind]
    congr 1
    funext part
    rw [ih, map_bind, ← bind_pure_comp]
    simp

theorem encodeEach_eq (type : Option CqlType) (framing : Framing) (vs : List Value) :
    encodeEach r type framing vs [] = List.flatten <$> vs.mapM (r.encodeFramed framing type) :=
  accumulate (fun _ => rfl) (encodeEach_cons r type framing) vs []

theorem encodeEntries_cons (keyType valueType : Option CqlType) (entry : Value × Value)
    (entries : List (Value × Value)) (done : List Bytes) :
    encodeEntries r keyType valueType (entry :: entries) done = (do
      let part ← r.encodeEntry keyType valueType entry
      encodeEntries r keyType valueType entries (part :: done)) := by
  obtain ⟨k, v⟩ := entry
  rw [encodeEntries]
  simp only [Registry.encodeEntry, Registry.encodeFramed, Registry.encode]
  cases r.encoder keyType k with
  | error fault => rfl
  | ok keyCodec =>
    cases r.encoder valueType v with
    | error fault => simp only [bind_assoc]; rfl
    | ok valueCodec => simp only [bind_assoc, pure_bind]

theorem encodeEntries_eq (keyType valueType : Option CqlType) (entries : List (Value × Value)) :
    encodeEntries r keyType valueType entries [] =
      List.flatten <$> entries.mapM (r.encodeEntry keyType valueType) :=
  accumulate (fun _ => rfl) (encodeEntries_cons r keyType valueType) entries []

/-! ## Fields -/

theorem encodeTuple_cons (type : Option CqlType) (index : Nat) (v : Option Value)
    (vs : List (Option Value)) (done : List Bytes) :
    encodeTuple r type index (v :: vs) done = (do
      let part ← r.encodeSized v (type.bind (·.tupleElement? index))
      encodeTuple r type (index + 1) vs (part :: done)) := by
  cases v with
  | none => rw [encodeTuple]; rfl
  | some v =>
    rw [encodeTuple, encodeSized_some, Registry.encodeFramed, Registry.encode]
    cases r.encoder (type.bind (·.tupleElement? index)) v with
    | error fault => rfl
    | ok codec => exact (bind_assoc _ _ _).symm

theorem encodeTuple_eq (type : Option CqlType) (index : Nat) (vs : List (Option Value))
    (done : List Bytes) :
    encodeTuple r type index vs done =
      (fun parts => done.reverse.flatten ++ parts.flatten) <$>
        (vs.zipIdx index).mapM fun field =>
          r.encodeSized field.1 (type.bind (·.tupleElement? field.2)) := by
  induction vs generalizing index done with
  | nil => simp [encodeTuple, pure, Except.pure, Functor.map, Except.map]
  | cons v vs ih =>
    rw [encodeTuple_cons, List.zipIdx_cons, List.mapM_cons, map_bind]
    congr 1
    funext part
    rw [ih, map_bind, ← bind_pure_comp]
    simp

/-- The fields of a tuple of as many types. -/
theorem encodeTuple_typed {types : List CqlType} {fields : List (Option Value)}
    (h : types.length = fields.length) :
    encodeTuple r (some (.tuple types)) 0 fields [] =
      List.flatten <$> (types.zip fields).mapM fun field =>
        r.encodeSized field.2 (some field.1) := by
  have hpairs : (fields.zipIdx.map fun field => (field.1, types[field.2]?)) =
      (types.zip fields).map fun field => (field.2, some field.1) := by
    apply List.ext_getElem
    · simp [h]
    · intro i hi _
      have hi' : i < types.length := by simpa [h] using hi
      simp [List.getElem?_eq_getElem hi']
  have hmaps := congrArg (List.mapM fun field : Option Value × Option CqlType =>
    r.encodeSized field.1 field.2) hpairs
  rw [List.mapM_map, List.mapM_map] at hmaps
  rw [encodeTuple_eq]
  exact congrArg (List.flatten <$> ·) hmaps

/-- A field is written by its name's first writer, which is that of its name's first value. -/
theorem lookup_fieldWriters (fields : List (String × Option Value)) (name : String)
    (type : Option CqlType) :
    ((fieldWriters r fields).lookup name).elim (.ok Wire.null) (fun write => write type) =
      r.encodeSized (fields.lookup name).join type := by
  induction fields with
  | nil => rfl
  | cons field fields ih =>
    obtain ⟨other, v⟩ := field
    by_cases hname : name == other
    · cases v with
      | none => simp only [fieldWriters, List.lookup_cons, hname]; rfl
      | some v =>
        simp only [fieldWriters, List.lookup_cons, hname, Option.elim]
        show _ = r.encodeFramed .sized type v
        rw [Registry.encodeFramed, Registry.encode]
        cases r.encoder type v <;> rfl
    · cases v <;> simp only [fieldWriters, List.lookup_cons, hname, ih]

theorem writeDeclared_cons (fields : List (String × Option Value)) (field : String × CqlType)
    (types : List (String × CqlType)) (done : List Bytes) :
    writeDeclared (fieldWriters r fields) (field :: types) done = (do
      let part ← r.encodeSized (fields.lookup field.1).join (some field.2)
      writeDeclared (fieldWriters r fields) types (part :: done)) := by
  obtain ⟨name, type⟩ := field
  rw [← lookup_fieldWriters, writeDeclared]
  cases (fieldWriters r fields).lookup name <;> rfl

theorem writeDeclared_eq (fields : List (String × Option Value))
    (types : List (String × CqlType)) :
    writeDeclared (fieldWriters r fields) types [] =
      List.flatten <$> types.mapM fun field =>
        r.encodeSized (fields.lookup field.1).join (some field.2) :=
  accumulate (fun _ => rfl) (writeDeclared_cons r fields) types []

/-! ## Values of a type -/

section Typed

variable {element key value : CqlType}

/-- The encodings of elements behind their lengths, after their count. -/
def Registry.encodeCounted (element : CqlType) (vs : List Value) : Except EncodeFault Bytes := do
  let front ← count vs.length
  let parts ← vs.mapM (r.encodeFramed .sized (some element))
  return front ++ parts.flatten

theorem encodeCounted_eq (vs : List Value) :
    (do
      let front ← count vs.length
      let rest ← encodeEach r (some element) .sized vs []
      return front ++ rest) = r.encodeCounted element vs := by
  rw [encodeEach_eq, Registry.encodeCounted]
  simp only [bind_map_left]

theorem encode_list (vs : List Value) :
    Registry.standard.encode (.list vs) (some (.list element)) =
      Registry.standard.encodeCounted element vs :=
  encodeCounted_eq .standard vs

theorem encode_set (vs : List Value) :
    Registry.standard.encode (.set vs) (some (.set element)) =
      Registry.standard.encodeCounted element vs :=
  encodeCounted_eq .standard vs

theorem encode_map (entries : List (Value × Value)) :
    Registry.standard.encode (.map entries) (some (.map key value)) = (do
      let front ← count entries.length
      let parts ← entries.mapM (Registry.standard.encodeEntry (some key) (some value))
      return front ++ parts.flatten) := by
  show (do
    let front ← count entries.length
    let rest ← encodeEntries .standard (some key) (some value) entries []
    return front ++ rest) = _
  rw [encodeEntries_eq]
  simp only [bind_map_left]

theorem encode_tuple {types : List CqlType} {fields : List (Option Value)}
    (h : types.length = fields.length) :
    Registry.standard.encode (.tuple fields) (some (.tuple types)) =
      List.flatten <$> (types.zip fields).mapM fun field =>
        Registry.standard.encodeSized field.2 (some field.1) := by
  show (do
    checkTupleWidth (some (.tuple types)) fields.length
    encodeTuple .standard (some (.tuple types)) 0 fields [] : Except EncodeFault Bytes) = _
  rw [checkTupleWidth, if_pos h, ← encodeTuple_typed .standard h]
  rfl

theorem encode_vector {dimensions : UInt16} {vs : List Value} (h : vs.length = dimensions.toNat) :
    Registry.standard.encode (.vector vs) (some (.vector element dimensions)) =
      element.fixedSize.mapError .panic >>= fun size =>
        List.flatten <$> vs.mapM
          (Registry.standard.encodeFramed (vectorFraming size) (some element)) := by
  show (do
    let type ← vectorElement (some (.vector element dimensions)) vs
    let size ← elementSize type
    encodeEach .standard type (vectorFraming size) vs [] : Except EncodeFault Bytes) = _
  rw [vectorElement, if_pos h]
  simp only [← encodeEach_eq]
  rfl

theorem encode_vector_of_fits (hfits : element.SizeFits) {dimensions : UInt16} {vs : List Value}
    (h : vs.length = dimensions.toNat) :
    Registry.standard.encode (.vector vs) (some (.vector element dimensions)) =
      List.flatten <$> vs.mapM
        (Registry.standard.encodeFramed (vectorFraming element.exactSize) (some element)) := by
  rw [encode_vector h, CqlType.fixedSize_of_fits hfits]
  rfl

end Typed

end CqlClient
