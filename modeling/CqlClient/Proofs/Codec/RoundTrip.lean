import CqlClient.Proofs.Codec.Decode
import CqlClient.Proofs.Codec.Encode
import CqlClient.Proofs.CqlType.Size

/-!
# The round trip of typed values

`CqlType.canon` is the value as its type names it. The main statement, `decode_of_typed_encode`,
says that with the standard codecs the bytes of any value of any type are read as the canonical
form of that value.
-/

namespace CqlClient

open Codec Scalar

/-! ## Canonical values -/

mutual

/-- The value as its type names it. Fields of user types come in declared order, each with the first
value of its name, or null. -/
def CqlType.canon : CqlType → Value → Value
  | .native type, v => type.canon v
  | .list element, .list vs | .list element, .set vs => .list (vs.map element.canon)
  | .set element, .list vs | .set element, .set vs => .set (vs.map element.canon)
  | .map key value, .map entries =>
    .map (entries.map fun entry => (key.canon entry.1, value.canon entry.2))
  | .tuple types, .tuple fields => .tuple (canonTuple types fields)
  | .udt keyspace name types, .udt _ _ fields => .udt keyspace name (canonFields types fields)
  | .vector element _, .list vs | .vector element _, .vector vs => .vector (vs.map element.canon)
  | _, v => v

def CqlType.canonTuple : List CqlType → List (Option Value) → List (Option Value)
  | type :: types, field :: fields => field.map type.canon :: canonTuple types fields
  | _, _ => []

def CqlType.canonFields : List (String × CqlType) → List (String × Option Value) →
    List (String × Option Value)
  | [], _ => []
  | (name, type) :: types, fields =>
    (name, (fields.lookup name).join.map type.canon) :: canonFields types fields

end

theorem canonTuple_eq (types : List CqlType) (fields : List (Option Value)) :
    CqlType.canonTuple types fields =
      (types.zip fields).map fun field => field.2.map field.1.canon := by
  induction types generalizing fields with
  | nil => rfl
  | cons type types ih =>
    cases fields with
    | nil => rfl
    | cons field fields => rw [CqlType.canonTuple, ih, List.zip_cons_cons, List.map_cons]

theorem canonFields_eq (types : List (String × CqlType)) (fields : List (String × Option Value)) :
    CqlType.canonFields types fields =
      types.map fun field => (field.1, (fields.lookup field.1).join.map field.2.canon) := by
  induction types with
  | nil => rfl
  | cons field types ih =>
    obtain ⟨name, type⟩ := field
    rw [CqlType.canonFields, ih, List.map_cons]

/-! ## Parts behind their length -/

theorem sized_eq_ok {v : Value} {bytes part : Bytes} :
    Framing.sized v bytes = .ok part ↔
      bytes.length ≤ Wire.maxInt32 ∧ Wire.writeBytes bytes = part := by
  rw [Framing.sized, mapError_eq_ok]
  by_cases h : bytes.length ≤ Wire.maxInt32 <;>
    simp [Wire.lengthPrefixed, Wire.writeBytes, h]

theorem encodeFramed_eq_ok {r : Registry} {framing : Framing} {type : Option CqlType} {v : Value}
    {part : Bytes} : r.encodeFramed framing type v = .ok part ↔
      ∃ bytes, r.encode v type = .ok bytes ∧ framing v bytes = .ok part := bind_eq_ok

theorem count_eq_ok {n : Nat} {front : Bytes} :
    count n = .ok front ↔ n ≤ Wire.maxInt32 ∧ Bytes.ofNat 4 n = front := by
  by_cases h : n ≤ Wire.maxInt32 <;> simp [count, h]

/-- A type whose encodings are read as the canonical forms of their values. -/
def ReadsBack (type : CqlType) : Prop :=
  ∀ (v : Value) (bytes : Bytes), Registry.standard.encode v (some type) = .ok bytes →
    Registry.standard.decode type bytes = .ok (type.canon v)

namespace ReadsBack

variable {type : CqlType}

theorem element (h : ReadsBack type) (v : Value) (part : Bytes)
    (hw : Registry.standard.encodeFramed .sized (some type) v = .ok part) :
    Reads (readElement (Registry.standard.decode type)) part (type.canon v) := by
  obtain ⟨bytes, hbytes, hpart⟩ := encodeFramed_eq_ok.mp hw
  obtain ⟨hlen, rfl⟩ := sized_eq_ok.mp hpart
  exact reads_readElement (h v bytes hbytes) hlen

theorem field (h : ReadsBack type) (v : Option Value) (part : Bytes)
    (hw : Registry.standard.encodeSized v (some type) = .ok part) :
    Reads (readField (Registry.standard.decode type)) part (v.map type.canon) := by
  cases v with
  | none =>
    cases hw
    exact reads_readField_null
  | some v =>
    obtain ⟨bytes, hbytes, hpart⟩ := encodeFramed_eq_ok.mp hw
    obtain ⟨hlen, rfl⟩ := sized_eq_ok.mp hpart
    exact reads_readField (h v bytes hbytes) hlen

/-- A field of a user type is never mistaken for one that was added later. -/
theorem lateField (h : ReadsBack type) (v : Option Value) (part : Bytes)
    (hw : Registry.standard.encodeSized v (some type) = .ok part) :
    Reads (readLateField (Registry.standard.decode type)) part (v.map type.canon) := by
  refine reads_readLateField ?_ (h.field v part hw)
  cases v with
  | none =>
    cases hw
    exact List.cons_ne_nil _ _
  | some v =>
    obtain ⟨bytes, _, hpart⟩ := encodeFramed_eq_ok.mp hw
    obtain ⟨_, rfl⟩ := sized_eq_ok.mp hpart
    rw [Wire.writeBytes, ofNat_succ]
    exact List.cons_ne_nil _ _

end ReadsBack

/-! ## Containers -/

section Containers

variable {element : CqlType}

/-- The elements of lists and sets. -/
theorem elements_readBack {vs : List Value} {bytes : Bytes} (h : ReadsBack element)
    (hw : (do
      let front ← count vs.length
      let rest ← encodeEach .standard (some element) .sized vs []
      return front ++ rest : Except EncodeFault Bytes) = .ok bytes) :
    (elements (Registry.standard.decode element)).outcome bytes = .ok (vs.map element.canon) := by
  obtain ⟨front, hfront, hw⟩ := bind_eq_ok.mp hw
  obtain ⟨hlen, rfl⟩ := count_eq_ok.mp hfront
  obtain ⟨rest, hrest, hw⟩ := bind_eq_ok.mp hw
  cases hw
  rw [encodeEach_eq] at hrest
  obtain ⟨parts, hparts, rfl⟩ := map_eq_ok.mp hrest
  rw [elements, outcome_bind (reads_readCount hlen), times_length]
  exact outcome_of_reads "collection" id (reads_mapM (fun v _ part => h.element v part) hparts)

theorem list_readsBack (h : ReadsBack element) : ReadsBack (.list element) := by
  intro v bytes hw
  cases v <;> try cases hw
  all_goals
    have hread := elements_readBack h hw
    show Value.list <$> (elements (Registry.standard.decode element)).outcome bytes = _
    rw [hread]
    rfl

theorem set_readsBack (h : ReadsBack element) : ReadsBack (.set element) := by
  intro v bytes hw
  cases v <;> try cases hw
  all_goals
    have hread := elements_readBack h hw
    show Value.set <$> (elements (Registry.standard.decode element)).outcome bytes = _
    rw [hread]
    rfl

theorem entry_readsBack {key value : CqlType} (hk : ReadsBack key) (hv : ReadsBack value)
    (entry : Value × Value) (part : Bytes)
    (hw : Registry.standard.encodeEntry (some key) (some value) entry = .ok part) :
    Reads (do
        let k ← readElement (Registry.standard.decode key)
        let v ← readElement (Registry.standard.decode value)
        return (k, v)) part (key.canon entry.1, value.canon entry.2) := by
  obtain ⟨keyPart, hkey, hw⟩ := bind_eq_ok.mp hw
  obtain ⟨valuePart, hvalue, hw⟩ := bind_eq_ok.mp hw
  cases hw
  exact (hk.element _ _ hkey).bind ((hv.element _ _ hvalue).map _)

theorem map_readsBack {key value : CqlType} (hk : ReadsBack key) (hv : ReadsBack value) :
    ReadsBack (.map key value) := by
  intro v bytes hw
  cases v <;> try cases hw
  rename_i es
  obtain ⟨front, hfront, hw⟩ := bind_eq_ok.mp hw
  obtain ⟨hlen, rfl⟩ := count_eq_ok.mp hfront
  obtain ⟨rest, hrest, hw⟩ := bind_eq_ok.mp hw
  cases hw
  have hrest := (encodeEntries_eq .standard (some key) (some value) es).symm.trans hrest
  obtain ⟨parts, hparts, rfl⟩ := map_eq_ok.mp hrest
  have hread : (entries (Registry.standard.decode key) (Registry.standard.decode value)).outcome
      (Bytes.ofNat 4 es.length ++ parts.flatten) =
        .ok (es.map fun entry => (key.canon entry.1, value.canon entry.2)) := by
    rw [entries, outcome_bind (reads_readCount hlen), times_length]
    exact outcome_of_reads "map" id
      (reads_mapM (fun entry _ part => entry_readsBack hk hv entry part) hparts)
  show Value.map <$> (entries (Registry.standard.decode key)
    (Registry.standard.decode value)).outcome _ = _
  rw [hread]
  rfl

theorem tuple_readsBack {types : List CqlType} (h : ∀ type ∈ types, ReadsBack type) :
    ReadsBack (.tuple types) := by
  intro v bytes hw
  cases v <;> try cases hw
  rename_i fields
  obtain ⟨_, hwidth, hw⟩ := bind_eq_ok.mp hw
  have hlen : types.length = fields.length := by
    by_cases hlen : types.length = fields.length
    · exact hlen
    · simp [checkTupleWidth, hlen] at hwidth
  rw [encodeTuple_typed .standard hlen] at hw
  obtain ⟨parts, hparts, rfl⟩ := map_eq_ok.mp hw
  have hread : (decodeTuple .standard types []).outcome parts.flatten =
      .ok (CqlType.canonTuple types fields) := by
    have htypes : types.mapM (fun type => readField (Registry.standard.decode type)) =
        (types.zip fields).mapM fun field => readField (Registry.standard.decode field.1) := by
      conv =>
        lhs
        rw [← List.map_fst_zip (Nat.le_of_eq hlen), List.mapM_map]
      rfl
    rw [decodeTuple_eq, canonTuple_eq, htypes]
    exact outcome_of_reads "tuple" id (reads_mapM (fun field hf part hpart =>
      (h field.1 (List.of_mem_zip hf).1).field _ part hpart) hparts)
  show Value.tuple <$> (decodeTuple .standard types []).outcome _ = _
  rw [hread]
  rfl

/-- A value of a user type that declares all its fields is written as they are declared. -/
theorem encode_udt {keyspace name owner other : String} {types : List (String × CqlType)}
    {fields : List (String × Option Value)} :
    Registry.standard.encode (.udt owner other fields) (some (.udt keyspace name types)) =
      (undeclared? types fields).elim (writeDeclared (fieldWriters .standard fields) types [])
        fun field => .error (.unknownField name field) := by
  show encodeWith .standard (.udt owner other fields) .udt (some (.udt keyspace name types)) = _
  rw [encodeWith]
  cases undeclared? types fields <;> rfl

theorem udt_readsBack {keyspace name : String} {types : List (String × CqlType)}
    (h : ∀ field ∈ types, ReadsBack field.2) : ReadsBack (.udt keyspace name types) := by
  intro v bytes hw
  cases v <;> try cases hw
  rename_i _ _ fields
  rw [encode_udt] at hw
  cases hdeclared : undeclared? types fields with
  | some field =>
    rw [hdeclared] at hw
    cases hw
  | none =>
    rw [hdeclared, Option.elim_none, writeDeclared_eq] at hw
    obtain ⟨parts, hparts, rfl⟩ := map_eq_ok.mp hw
    have hread : (decodeFields .standard types []).outcome parts.flatten =
        .ok (CqlType.canonFields types fields) := by
      rw [decodeFields_eq, canonFields_eq]
      exact outcome_of_reads "udt" id (reads_mapM (fun field hf part hpart =>
        ((h field hf).lateField _ part hpart).map (Prod.mk field.1)) hparts)
    show Value.udt keyspace name <$> (decodeFields .standard types []).outcome _ = _
    rw [hread]
    rfl

theorem decode_vector (element : CqlType) (dimensions : UInt16) (bytes : Bytes) :
    Registry.standard.decode (.vector element dimensions) bytes =
      element.fixedSize.mapError .panic >>= fun size =>
        Value.vector <$> (components dimensions.toNat size
          (Registry.standard.decode element)).outcome bytes := rfl

/-- The elements of a vector that is read have a size that could be counted, or none. -/
theorem decode_vector_eq_ok {dimensions : UInt16} {bytes : Bytes} {v : Value} :
    Registry.standard.decode (.vector element dimensions) bytes = .ok v ↔
      element.SizeFits ∧ ∃ vs, (components dimensions.toNat element.exactSize
        (Registry.standard.decode element)).outcome bytes = .ok vs ∧ .vector vs = v := by
  rw [decode_vector, bind_eq_ok]
  constructor
  · rintro ⟨size, hsize, h⟩
    obtain ⟨hfits, rfl⟩ := CqlType.fixedSize_eq_ok.mp (mapError_eq_ok.mp hsize)
    exact ⟨hfits, map_eq_ok.mp h⟩
  · rintro ⟨hfits, h⟩
    exact ⟨_, mapError_eq_ok.mpr (CqlType.fixedSize_of_fits hfits), map_eq_ok.mpr h⟩

/-- The elements of vectors, whose framing depends on their size alone. -/
theorem component_readsBack (h : ReadsBack element) (size : Option Nat) (v : Value) (part : Bytes)
    (hw : Registry.standard.encodeFramed (vectorFraming size) (some element) v = .ok part) :
    Reads (readComponent size (Registry.standard.decode element)) part (element.canon v) := by
  obtain ⟨bytes, hbytes, hpart⟩ := encodeFramed_eq_ok.mp hw
  have hd := h v bytes hbytes
  cases size with
  | none =>
    by_cases hlen : bytes.length < UInt64.size
    · have : Vint.writeUnsigned (UInt64.ofNat bytes.length) ++ bytes = part := by
        simpa [vectorFraming, Framing.vintSized, hlen] using hpart
      rw [← this]
      exact reads_readComponent_vint hd hlen
    · simp [vectorFraming, Framing.vintSized, hlen] at hpart
  | some size =>
    by_cases hlen : bytes.length = size
    · have : bytes = part := by simpa [vectorFraming, Framing.bare, hlen] using hpart
      rw [← this, ← hlen]
      exact reads_readComponent_bare hd
    · simp [vectorFraming, Framing.bare, hlen] at hpart

theorem components_readBack {dimensions : UInt16} {vs : List Value} {bytes : Bytes}
    (h : ReadsBack element)
    (hw : (do
      let type ← vectorElement (some (.vector element dimensions)) vs
      let size ← elementSize type
      encodeEach .standard type (vectorFraming size) vs [] : Except EncodeFault Bytes) =
        .ok bytes) :
    Registry.standard.decode (.vector element dimensions) bytes =
      .ok (.vector (vs.map element.canon)) := by
  obtain ⟨type, htype, hw⟩ := bind_eq_ok.mp hw
  obtain ⟨size, hsize, hw⟩ := bind_eq_ok.mp hw
  have hlen : vs.length = dimensions.toNat := by
    by_cases hlen : vs.length = dimensions.toNat
    · exact hlen
    · simp [vectorElement, hlen] at htype
  have htype : some element = type := by simpa [vectorElement, hlen] using htype
  subst htype
  rw [encodeEach_eq] at hw
  obtain ⟨parts, hparts, rfl⟩ := map_eq_ok.mp hw
  have hread : (components dimensions.toNat size (Registry.standard.decode element)).outcome
      parts.flatten = .ok (vs.map element.canon) := by
    rw [components, ← hlen, times_length]
    exact outcome_of_reads "vector" id
      (reads_mapM (fun v _ part => component_readsBack h size v part) hparts)
  obtain ⟨hfits, rfl⟩ := CqlType.fixedSize_eq_ok.mp (mapError_eq_ok.mp hsize)
  exact decode_vector_eq_ok.mpr ⟨hfits, _, hread, rfl⟩

theorem vector_readsBack {dimensions : UInt16} (h : ReadsBack element) :
    ReadsBack (.vector element dimensions) := by
  intro v bytes hw
  cases v <;> try cases hw
  all_goals exact components_readBack h hw

end Containers

/-! ## All types -/

theorem encode_native {type : Native} (v : Value) :
    Registry.standard.encode v (some (.native type)) = Scalar.encode type v := by
  cases v <;> rfl

theorem readsBack (type : CqlType) : ReadsBack type := by
  induction type using CqlType.inductionOn with
  | native type =>
    intro v bytes h
    exact Scalar.decode_of_encode ((encode_native v).symm.trans h)
  | custom className =>
    intro v bytes h
    cases h
  | list element ih => exact list_readsBack ih
  | set element ih => exact set_readsBack ih
  | map key value ihk ihv => exact map_readsBack ihk ihv
  | tuple types ih => exact tuple_readsBack ih
  | udt keyspace name fields ih => exact udt_readsBack ih
  | vector element dimensions ih => exact vector_readsBack ih

/-- With the standard codecs, the bytes of a value of a type are read as the canonical form of the
value. -/
theorem decode_of_typed_encode (type : CqlType) (v : Value) (bytes : Bytes)
    (h : Registry.standard.encode v (some type) = .ok bytes) :
    Registry.standard.decode type bytes = .ok (type.canon v) :=
  readsBack type v bytes h

/-- A user type over a list, a vector and a field that the value lacks. -/
theorem decode_of_typed_encode_udt :
    Registry.standard.encode (.udt "" "" [("at", some (.list [.int 7, .int (-1)])),
        ("tags", some (.set [.text "a"]))])
      (some (.udt "shop" "item" [("tags", .list (.native .ascii)),
        ("at", .vector (.native .int) 2), ("late", .native .varint)])) =
      .ok [0, 0, 0, 9, 0, 0, 0, 1, 0, 0, 0, 1, 97, 0, 0, 0, 8, 0, 0, 0, 7, 255, 255, 255, 255,
        255, 255, 255, 255] ∧
    Registry.standard.decode
      (.udt "shop" "item" [("tags", .list (.native .ascii)), ("at", .vector (.native .int) 2),
        ("late", .native .varint)])
      [0, 0, 0, 9, 0, 0, 0, 1, 0, 0, 0, 1, 97, 0, 0, 0, 8, 0, 0, 0, 7, 255, 255, 255, 255,
        255, 255, 255, 255] =
      .ok (.udt "shop" "item" [("tags", some (.list [.ascii "a"])),
        ("at", some (.vector [.int 7, .int (-1)])), ("late", none)]) := by
  refine ⟨?encoded, ?decoded⟩
  case encoded => rfl
  case decoded => exact decode_of_typed_encode _ (.udt "" "" [("at", some (.list [.int 7,
    .int (-1)])), ("tags", some (.set [.text "a"]))]) _ rfl

end CqlClient
