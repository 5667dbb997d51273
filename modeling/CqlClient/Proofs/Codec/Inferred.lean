import CqlClient.Proofs.Codec.RoundTrip

/-!
# Values that tell their own type

Without a described type a value is written by what it is itself. That comes to the same bytes where
the type says nothing that its values leave open:

* `CqlType.Describes`: what kind of values a type has, with how many parts and which fields;
* `describes_of_decode`: every value that is read is of its type;
* `CqlType.Inferable`: the types whose values tell all that writing needs to know;
* `encode_without_type`: the values of such a type are written alike with and without it.
-/

namespace CqlClient

open Codec Scalar

/-- The value is of the type: the same kinds, as many parts, and the same fields in the same
order. -/
inductive CqlType.Describes : CqlType → Value → Prop
  | native {type : Native} {v : Value} (kind : v.code = .native type) : Describes (.native type) v
  | list {element : CqlType} {vs : List Value} (each : ∀ v ∈ vs, Describes element v) :
    Describes (.list element) (.list vs)
  | set {element : CqlType} {vs : List Value} (each : ∀ v ∈ vs, Describes element v) :
    Describes (.set element) (.set vs)
  | map {key value : CqlType} {entries : List (Value × Value)}
    (keys : ∀ entry ∈ entries, Describes key entry.1)
    (values : ∀ entry ∈ entries, Describes value entry.2) :
    Describes (.map key value) (.map entries)
  | tuple {types : List CqlType} {fields : List (Option Value)}
    (width : types.length = fields.length)
    (each : ∀ field ∈ types.zip fields, ∀ v ∈ field.2, Describes field.1 v) :
    Describes (.tuple types) (.tuple fields)
  | udt {keyspace name : String} {types : List (String × CqlType)} {owner other : String}
    {fields : List (String × Option Value)} (names : types.map Prod.fst = fields.map Prod.fst)
    (each : ∀ field ∈ types.zip fields, ∀ v ∈ field.2.2, Describes field.1.2 v) :
    Describes (.udt keyspace name types) (.udt owner other fields)
  | vector {element : CqlType} {dimensions : UInt16} {vs : List Value}
    (length : vs.length = dimensions.toNat) (each : ∀ v ∈ vs, Describes element v) :
    Describes (.vector element dimensions) (.vector vs)

/-- Two lists carry the same names in the same order. -/
theorem map_fst_eq_iff {α β : Type} {as : List (String × α)} {bs : List (String × β)} :
    as.map Prod.fst = bs.map Prod.fst ↔
      as.length = bs.length ∧ ∀ pair ∈ as.zip bs, pair.1.1 = pair.2.1 := by
  induction as generalizing bs with
  | nil => cases bs <;> simp
  | cons a as ih =>
    cases bs with
    | nil => simp
    | cons b bs =>
      simp only [List.map_cons, List.cons.injEq, ih, List.length_cons, Nat.add_right_cancel_iff,
        List.zip_cons_cons, List.forall_mem_cons]
      constructor
      · rintro ⟨hfirst, hlen, hrest⟩
        exact ⟨hlen, hfirst, hrest⟩
      · rintro ⟨hlen, hfirst, hrest⟩
        exact ⟨hfirst, hlen, hrest⟩

/-! ## Values that are read -/

section Read

variable {decode decodeKey decodeValue : PartDecoder} {bytes : Bytes}

theorem Scalar.code_of_decode {type : Native} {v : Value} (h : Scalar.decode type bytes = .ok v) :
    v.code = .native type := by
  cases type with
  | blob =>
    cases h
    rfl
  | ascii =>
    rw [Scalar.decode] at h
    split at h
    · obtain ⟨_, -, h⟩ := bind_eq_ok.mp h
      cases h
      rfl
    · cases h
  | inet =>
    rw [Scalar.decode] at h
    split at h <;> cases h <;> rfl
  | time =>
    obtain ⟨_, -, h⟩ := bind_eq_ok.mp h
    dsimp only at h
    split at h <;> cases h
    rfl
  | varint =>
    rw [Scalar.decode] at h
    split at h <;> cases h
    rfl
  | decimal =>
    rw [Scalar.decode] at h
    split at h <;> cases h
    rfl
  | _ =>
    obtain ⟨_, -, h⟩ := bind_eq_ok.mp h
    cases h
    rfl

/-- Reading that ends with a check for trailing bytes. -/
theorem made_of_nothingLeft {α β : Type} {r : Reader DecodeFault α} {what : String} {g : α → β}
    {b : β}
    (h : (do let a ← r; nothingLeft what; return g a : Reader DecodeFault β).outcome bytes =
      .ok b) : ∃ a rest, r bytes = .ok a rest ∧ g a = b := by
  obtain ⟨rest, h⟩ := Reader.outcome_eq_ok.mp h
  obtain ⟨a, middle, ha, h⟩ := Reader.bind_eq_ok.mp h
  obtain ⟨_, _, -, h⟩ := Reader.bind_eq_ok.mp h
  cases h
  exact ⟨a, middle, ha, rfl⟩

theorem made_of_readElement {rest : Bytes} {v : Value}
    (h : readElement decode bytes = .ok v rest) : ∃ part, decode part = .ok v := by
  obtain ⟨part, _, -, h⟩ := Reader.bind_eq_ok.mp h
  cases part with
  | none => cases h
  | some part => exact ⟨part, (Reader.ofExcept_eq_ok.mp h).1⟩

theorem made_of_readField {rest : Bytes} {field : Option Value}
    (h : readField decode bytes = .ok field rest) : ∀ v ∈ field, ∃ part, decode part = .ok v := by
  obtain ⟨part, _, -, h⟩ := Reader.bind_eq_ok.mp h
  cases part with
  | none =>
    cases h
    simp
  | some part =>
    obtain ⟨v, _, hv, h⟩ := Reader.bind_eq_ok.mp h
    cases h
    rintro _ ⟨⟩
    exact ⟨part, (Reader.ofExcept_eq_ok.mp hv).1⟩

theorem made_of_readLateField {rest : Bytes} {field : Option Value}
    (h : readLateField decode bytes = .ok field rest) :
    ∀ v ∈ field, ∃ part, decode part = .ok v := by
  obtain ⟨left, _, -, h⟩ := Reader.bind_eq_ok.mp h
  split at h
  · cases h
    simp
  · exact made_of_readField h

theorem made_of_readComponent {size : Option Nat} {rest : Bytes} {v : Value}
    (h : readComponent size decode bytes = .ok v rest) : ∃ part, decode part = .ok v := by
  have hpart : ∀ n middle, (do Reader.ofExcept (decode (← wire (Wire.raw n))) :
      Reader DecodeFault Value) middle = .ok v rest → ∃ part, decode part = .ok v := by
    intro n middle h
    obtain ⟨part, _, -, h⟩ := Reader.bind_eq_ok.mp h
    exact ⟨part, (Reader.ofExcept_eq_ok.mp h).1⟩
  cases size with
  | some n => exact hpart n bytes h
  | none =>
    obtain ⟨n, middle, -, h⟩ := Reader.bind_eq_ok.mp h
    exact hpart n middle h

theorem made_of_elements {vs : List Value} (h : (elements decode).outcome bytes = .ok vs) :
    ∀ v ∈ vs, ∃ part, decode part = .ok v := by
  obtain ⟨rest, h⟩ := Reader.outcome_eq_ok.mp h
  obtain ⟨n, body, -, h⟩ := Reader.bind_eq_ok.mp h
  obtain ⟨made, _, hmade, rfl⟩ := made_of_nothingLeft (g := id) (Reader.outcome_eq_ok.mpr ⟨_, h⟩)
  intro v hv
  obtain ⟨front, back, hread⟩ := (made_of_times hmade).2 v hv
  exact made_of_readElement hread

theorem made_of_entries {pairs : List (Value × Value)}
    (h : (entries decodeKey decodeValue).outcome bytes = .ok pairs) :
    ∀ pair ∈ pairs, (∃ part, decodeKey part = .ok pair.1) ∧
      ∃ part, decodeValue part = .ok pair.2 := by
  obtain ⟨rest, h⟩ := Reader.outcome_eq_ok.mp h
  obtain ⟨n, body, -, h⟩ := Reader.bind_eq_ok.mp h
  obtain ⟨made, _, hmade, rfl⟩ := made_of_nothingLeft (g := id) (Reader.outcome_eq_ok.mpr ⟨_, h⟩)
  intro pair hpair
  obtain ⟨front, back, hread⟩ := (made_of_times hmade).2 pair hpair
  obtain ⟨key, middle, hkey, hread⟩ := Reader.bind_eq_ok.mp hread
  obtain ⟨value, last, hvalue, hread⟩ := Reader.bind_eq_ok.mp hread
  cases hread
  exact ⟨made_of_readElement hkey, made_of_readElement hvalue⟩

theorem made_of_components {dimensions : Nat} {size : Option Nat} {vs : List Value}
    (h : (components dimensions size decode).outcome bytes = .ok vs) :
    vs.length = dimensions ∧ ∀ v ∈ vs, ∃ part, decode part = .ok v := by
  obtain ⟨made, _, hmade, rfl⟩ := made_of_nothingLeft (g := id) h
  obtain ⟨hlen, heach⟩ := made_of_times hmade
  refine ⟨hlen, fun v hv => ?_⟩
  obtain ⟨front, back, hread⟩ := heach v hv
  exact made_of_readComponent hread

theorem made_of_decodeTuple {r : Registry} {types : List CqlType} {fields : List (Option Value)}
    (h : (decodeTuple r types []).outcome bytes = .ok fields) :
    types.length = fields.length ∧ ∀ field ∈ types.zip fields, ∀ v ∈ field.2,
      ∃ part, r.decode field.1 part = .ok v := by
  rw [decodeTuple_eq] at h
  obtain ⟨made, _, hmade, rfl⟩ := made_of_nothingLeft h
  obtain ⟨hlen, heach⟩ := made_of_mapM hmade
  refine ⟨by simpa using hlen, fun field hfield => ?_⟩
  obtain ⟨front, back, hread⟩ := heach field (by simpa using hfield)
  exact made_of_readField hread

theorem made_of_decodeFields {r : Registry} {types : List (String × CqlType)}
    {fields : List (String × Option Value)}
    (h : (decodeFields r types []).outcome bytes = .ok fields) :
    types.map Prod.fst = fields.map Prod.fst ∧ ∀ field ∈ types.zip fields, ∀ v ∈ field.2.2,
      ∃ part, r.decode field.1.2 part = .ok v := by
  rw [decodeFields_eq] at h
  obtain ⟨made, _, hmade, rfl⟩ := made_of_nothingLeft h
  obtain ⟨hlen, heach⟩ := made_of_mapM hmade
  have hfield : ∀ field ∈ types.zip made, field.1.1 = field.2.1 ∧ ∀ v ∈ field.2.2,
      ∃ part, r.decode field.1.2 part = .ok v := by
    rintro ⟨⟨name, type⟩, other, v⟩ hmem
    obtain ⟨front, back, hread⟩ := heach _ hmem
    obtain ⟨field, middle, hv, hread⟩ := Reader.bind_eq_ok.mp hread
    have hread : (pure (name, field) : Reader DecodeFault _) middle = .ok (other, v) back := hread
    cases hread
    exact ⟨rfl, made_of_readLateField hv⟩
  have hnames : types.map Prod.fst = made.map Prod.fst :=
    map_fst_eq_iff.mpr ⟨hlen, fun field hmem => (hfield field hmem).1⟩
  exact ⟨by simpa using hnames, fun field hmem => (hfield field (by simpa using hmem)).2⟩

end Read

/-- Whatever is read by a type is of that type. -/
theorem describes_of_decode {type : CqlType} {bytes : Bytes} {v : Value}
    (h : Registry.standard.decode type bytes = .ok v) : type.Describes v := by
  induction type using CqlType.inductionOn generalizing bytes v with
  | native type => exact .native (Scalar.code_of_decode h)
  | custom className => cases h
  | list element ih =>
    obtain ⟨vs, hvs, h⟩ := bind_eq_ok.mp h
    cases h
    have heach := made_of_elements hvs
    exact .list fun v hv => (heach v hv).elim fun _ => ih
  | set element ih =>
    obtain ⟨vs, hvs, h⟩ := bind_eq_ok.mp h
    cases h
    have heach := made_of_elements hvs
    exact .set fun v hv => (heach v hv).elim fun _ => ih
  | map key value ihk ihv =>
    obtain ⟨pairs, hpairs, h⟩ := bind_eq_ok.mp h
    cases h
    have heach := made_of_entries hpairs
    exact .map (fun pair hp => (heach pair hp).1.elim fun _ => ihk)
      fun pair hp => (heach pair hp).2.elim fun _ => ihv
  | tuple types ih =>
    obtain ⟨fields, hfields, h⟩ := bind_eq_ok.mp h
    cases h
    obtain ⟨hwidth, heach⟩ := made_of_decodeTuple hfields
    refine .tuple hwidth fun field hmem v hv => ?_
    obtain ⟨part, hpart⟩ := heach field hmem v hv
    exact ih field.1 (List.of_mem_zip hmem).1 hpart
  | udt keyspace name types ih =>
    obtain ⟨fields, hfields, h⟩ := bind_eq_ok.mp h
    cases h
    obtain ⟨hnames, heach⟩ := made_of_decodeFields hfields
    refine .udt hnames fun field hmem v hv => ?_
    obtain ⟨part, hpart⟩ := heach field hmem v hv
    exact ih field.1 (List.of_mem_zip hmem).1 hpart
  | vector element dimensions ih =>
    obtain ⟨-, vs, hvs, rfl⟩ := decode_vector_eq_ok.mp h
    obtain ⟨hlength, heach⟩ := made_of_components hvs
    exact .vector hlength fun v hv => (heach v hv).elim fun _ => ih

/-! ## Values written without their type -/

/-- The types whose values tell all that writing needs to know. The first element of an untyped
vector tells whether elements are framed, unless it is a vector itself; and the fields of a user
type are told apart by their names alone. -/
inductive CqlType.Inferable : CqlType → Prop
  | native (type : Native) : Inferable (.native type)
  | list {element : CqlType} (part : Inferable element) : Inferable (.list element)
  | set {element : CqlType} (part : Inferable element) : Inferable (.set element)
  | map {key value : CqlType} (keys : Inferable key) (values : Inferable value) :
    Inferable (.map key value)
  | tuple {types : List CqlType} (each : ∀ type ∈ types, Inferable type) : Inferable (.tuple types)
  | udt {keyspace name : String} {fields : List (String × CqlType)}
    (distinct : (fields.map Prod.fst).Nodup) (each : ∀ field ∈ fields, Inferable field.2) :
    Inferable (.udt keyspace name fields)
  | vector {element : CqlType} {dimensions : UInt16} (part : Inferable element)
    (framed : dimensions = 0 ∨ element.exactSize = none ∨ ∃ type, element = .native type) :
    Inferable (.vector element dimensions)

section Write

variable {r : Registry} {type other : Option CqlType}

theorem encodeFramed_congr {framing : Framing} {v : Value}
    (h : r.encode v type = r.encode v other) :
    r.encodeFramed framing type v = r.encodeFramed framing other v := by
  rw [Registry.encodeFramed, Registry.encodeFramed, h]

theorem encodeEach_congr {framing : Framing} {vs : List Value}
    (h : ∀ v ∈ vs, r.encode v type = r.encode v other) :
    encodeEach r type framing vs [] = encodeEach r other framing vs [] := by
  rw [encodeEach_eq, encodeEach_eq, mapM_congr fun v hv => encodeFramed_congr (h v hv)]

theorem encodeEntries_congr {keyType valueType : Option CqlType} {entries : List (Value × Value)}
    (hk : ∀ entry ∈ entries, r.encode entry.1 type = r.encode entry.1 keyType)
    (hv : ∀ entry ∈ entries, r.encode entry.2 other = r.encode entry.2 valueType) :
    encodeEntries r type other entries [] = encodeEntries r keyType valueType entries [] := by
  have hentry : ∀ entry ∈ entries,
      r.encodeEntry type other entry = r.encodeEntry keyType valueType entry := by
    intro entry hentry
    rw [Registry.encodeEntry, Registry.encodeEntry, encodeFramed_congr (hk entry hentry),
      encodeFramed_congr (hv entry hentry)]
  rw [encodeEntries_eq, encodeEntries_eq, mapM_congr hentry]

theorem encodeSized_congr {field : Option Value}
    (h : ∀ v ∈ field, r.encode v type = r.encode v other) :
    r.encodeSized field type = r.encodeSized field other := by
  cases field with
  | none => rfl
  | some v => exact encodeFramed_congr (h v rfl)

/-- Fields without a type, one by one. -/
theorem encodeTuple_untyped (r : Registry) (fields : List (Option Value)) :
    encodeTuple r none 0 fields [] = List.flatten <$> fields.mapM (r.encodeSized · none) := by
  have hfields : ((fields.zipIdx 0).mapM fun field => r.encodeSized field.1 none) =
      fields.mapM (r.encodeSized · none) := by
    conv => rhs; rw [← List.zipIdx_map_fst 0 fields, List.mapM_map]
    rfl
  rw [encodeTuple_eq, ← hfields]
  rfl

theorem writeUndeclared_eq (r : Registry) (fields : List (String × Option Value)) :
    writeUndeclared (fieldWriters r fields) [] =
      List.flatten <$> fields.mapM fun field => r.encodeSized field.2 none := by
  have hcons : ∀ (field : String × Option Value) fields done,
      writeUndeclared (fieldWriters r (field :: fields)) done = (do
        let part ← r.encodeSized field.2 none
        writeUndeclared (fieldWriters r fields) (part :: done)) := by
    rintro ⟨name, field⟩ fields done
    cases field with
    | none => rfl
    | some v =>
      simp only [fieldWriters, writeUndeclared, encodeSized_some, Registry.encodeFramed,
        Registry.encode]
      cases r.encoder none v <;> rfl
  exact @accumulate _ _ (fun fields => writeUndeclared (fieldWriters r fields)) (fun _ => rfl) hcons
    fields []

theorem lookup_of_mem {α : Type} {fields : List (String × α)} {name : String} {a : α}
    (hdistinct : (fields.map Prod.fst).Nodup) (h : (name, a) ∈ fields) :
    fields.lookup name = some a := by
  induction fields with
  | nil => cases h
  | cons field fields ih =>
    obtain ⟨first, b⟩ := field
    obtain ⟨hfirst, hrest⟩ := List.nodup_cons.mp hdistinct
    rcases List.mem_cons.mp h with heq | hmem
    · cases heq
      simp
    · have hne : name ≠ first := by
        rintro rfl
        exact hfirst (List.mem_map.mpr ⟨(name, a), hmem, rfl⟩)
      rw [List.lookup_cons, beq_eq_false_iff_ne.mpr hne]
      exact ih hrest hmem

/-- Of two lists of the same names, none of them twice, the second has what goes with a name of the
first. -/
theorem lookup_of_mem_zip {α β : Type} {as : List (String × α)} {bs : List (String × β)}
    (hdistinct : (as.map Prod.fst).Nodup) (hnames : as.map Prod.fst = bs.map Prod.fst)
    {pair : (String × α) × (String × β)} (h : pair ∈ as.zip bs) :
    pair.1.1 = pair.2.1 ∧ bs.lookup pair.1.1 = some pair.2.2 := by
  have hsame := (map_fst_eq_iff.mp hnames).2 pair h
  refine ⟨hsame, lookup_of_mem (hnames ▸ hdistinct) ?_⟩
  rw [hsame]
  exact (List.of_mem_zip h).2

end Write

/-- A type that writes every value it describes as the value is written by itself. -/
def WritesAlike (type : CqlType) : Prop :=
  ∀ v, type.Describes v → Registry.standard.encode v none = Registry.standard.encode v (some type)

section Containers

variable {element : CqlType}

theorem encode_untyped_native {type : Native} {v : Value} (h : v.code = .native type) :
    Registry.standard.encode v none = Scalar.encode type v := by
  cases v <;> cases h <;> rfl

theorem native_writesAlike (type : Native) : WritesAlike (.native type) := by
  intro v h
  cases h with
  | native hkind => rw [encode_untyped_native hkind, encode_native]

/-- The elements of lists and sets. -/
theorem elements_writeAlike {vs : List Value} (ih : WritesAlike element)
    (heach : ∀ v ∈ vs, element.Describes v) :
    (do
      let front ← count vs.length
      let rest ← encodeEach .standard none .sized vs []
      return front ++ rest : Except EncodeFault Bytes) = do
      let front ← count vs.length
      let rest ← encodeEach .standard (some element) .sized vs []
      return front ++ rest := by
  rw [encodeEach_congr fun v hv => ih v (heach v hv)]

theorem list_writesAlike (ih : WritesAlike element) : WritesAlike (.list element) := by
  intro v h
  cases h with
  | list heach => exact elements_writeAlike ih heach

theorem set_writesAlike (ih : WritesAlike element) : WritesAlike (.set element) := by
  intro v h
  cases h with
  | set heach => exact elements_writeAlike ih heach

theorem map_writesAlike {key value : CqlType} (ihk : WritesAlike key) (ihv : WritesAlike value) :
    WritesAlike (.map key value) := by
  intro v h
  cases h with
  | @map _ _ entries hkeys hvalues =>
    have hrest := encodeEntries_congr (fun entry he => ihk entry.1 (hkeys entry he))
      fun entry he => ihv entry.2 (hvalues entry he)
    show (do
      let front ← count entries.length
      let rest ← encodeEntries .standard none none entries []
      return front ++ rest : Except EncodeFault Bytes) = _
    rw [hrest]
    rfl

theorem tuple_writesAlike {types : List CqlType} (ih : ∀ type ∈ types, WritesAlike type) :
    WritesAlike (.tuple types) := by
  intro v h
  cases h with
  | @tuple _ fields hwidth heach =>
    have hfields : fields.mapM (Registry.standard.encodeSized · none) =
        (types.zip fields).mapM fun field =>
          Registry.standard.encodeSized field.2 (some field.1) := by
      rw [← List.map_snd_zip (Nat.le_of_eq hwidth.symm), List.mapM_map,
        List.map_snd_zip (Nat.le_of_eq hwidth.symm)]
      exact mapM_congr fun field hf => encodeSized_congr fun v hv =>
        ih field.1 (List.of_mem_zip hf).1 v (heach field hf v hv)
    rw [encode_tuple hwidth, ← hfields, ← encodeTuple_untyped]
    rfl

theorem undeclared?_eq_none {types : List (String × CqlType)}
    {fields : List (String × Option Value)} (hnames : types.map Prod.fst = fields.map Prod.fst) :
    undeclared? types fields = none := by
  rw [undeclared?, Option.map_eq_none_iff, List.find?_eq_none]
  intro field hfield
  have hname : field.1 ∈ types.map Prod.fst := hnames ▸ List.mem_map_of_mem hfield
  obtain ⟨declared, hdeclared, hsame⟩ := List.mem_map.mp hname
  have hany : types.any (·.1 == field.1) = true :=
    List.any_eq_true.mpr ⟨declared, hdeclared, by simp [hsame]⟩
  simp [hany]

theorem udt_writesAlike {keyspace name : String} {types : List (String × CqlType)}
    (hdistinct : (types.map Prod.fst).Nodup) (ih : ∀ field ∈ types, WritesAlike field.2) :
    WritesAlike (.udt keyspace name types) := by
  intro v h
  cases h with
  | @udt _ _ _ owner other fields hnames heach =>
    have hlen := (map_fst_eq_iff.mp hnames).1
    have hfield : ∀ field ∈ types.zip fields,
        Registry.standard.encodeSized field.2.2 none =
          Registry.standard.encodeSized (fields.lookup field.1.1).join (some field.1.2) := by
      intro field hf
      rw [(lookup_of_mem_zip hdistinct hnames hf).2]
      exact encodeSized_congr fun v hv => ih _ (List.of_mem_zip hf).1 v (heach _ hf v hv)
    have hfields : (fields.mapM fun field => Registry.standard.encodeSized field.2 none) =
        types.mapM fun field =>
          Registry.standard.encodeSized (fields.lookup field.1).join (some field.2) := by
      rw [← List.map_snd_zip (Nat.le_of_eq hlen.symm), List.mapM_map,
        List.map_snd_zip (Nat.le_of_eq hlen.symm)]
      conv => rhs; rw [← List.map_fst_zip (Nat.le_of_eq hlen), List.mapM_map]
      exact mapM_congr hfield
    have htyped : Registry.standard.encode (.udt owner other fields)
        (some (.udt keyspace name types)) =
          writeDeclared (fieldWriters .standard fields) types [] := by
      rw [encode_udt, undeclared?_eq_none hnames, Option.elim_none]
    rw [htyped, writeDeclared_eq, ← hfields, ← writeUndeclared_eq]
    rfl

theorem CqlType.Describes.code {type : CqlType} {v : Value} (h : type.Describes v) :
    v.code = type.code := by
  cases h with
  | native hkind => exact hkind
  | _ => rfl

/-- The first element of an untyped vector either tells the type of the elements or nothing of
it. -/
theorem encode_untyped_vector {v : Value} (vs : List Value) (h : element.Describes v) :
    Registry.standard.encode (.vector (v :: vs)) none =
      match element with
      | .native type =>
        encodeEach .standard (some element) (vectorFraming type.fixedSize) (v :: vs) []
      | _ => encodeEach .standard none .vintSized (v :: vs) [] := by
  show (do
    let size ← elementSize (v.code.toNative?.map .native)
    encodeEach .standard (v.code.toNative?.map .native) (vectorFraming size) (v :: vs) [] :
      Except EncodeFault Bytes) = _
  rw [h.code]
  cases element <;> rfl

/-- What multiplies the size of a type whose values tell all of it is one number, or zero. -/
theorem CqlType.Inferable.sizeFits {type : CqlType} (h : type.Inferable) :
    type.SizeFits ∧ ∀ size, type.exactSize = some size → size ≤ 16 * 65535 := by
  induction h with
  | native type => exact ⟨trivial, fun size h => Nat.le_trans (exactSize_native_le h) (by decide)⟩
  | @vector element dimensions _ hframed ih =>
    obtain ⟨hfits, hinner⟩ := ih
    have hle : ∀ size, element.exactSize = some size → size * dimensions.toNat ≤ 16 * 65535 := by
      intro size hsize
      rcases hframed with rfl | hnone | ⟨type, rfl⟩
      · exact Nat.zero_le _
      · cases hnone.symm.trans hsize
      · exact Nat.mul_le_mul (exactSize_native_le hsize) (Nat.le_of_lt_succ dimensions.toNat_lt)
    refine ⟨⟨hfits, fun size hsize => Nat.lt_of_le_of_lt (hle size hsize) (by decide)⟩, ?_⟩
    intro size hsize
    obtain ⟨part, hpart, rfl⟩ := Option.map_eq_some_iff.mp hsize
    exact hle part hpart
  | _ => exact ⟨trivial, nofun⟩

theorem vector_writesAlike {dimensions : UInt16} (hfits : element.SizeFits)
    (ih : WritesAlike element)
    (hframed : dimensions = 0 ∨ element.exactSize = none ∨ ∃ type, element = .native type) :
    WritesAlike (.vector element dimensions) := by
  intro v h
  cases h with
  | @vector _ _ vs hlength heach =>
    rw [encode_vector_of_fits hfits hlength, ← encodeEach_eq]
    cases vs with
    | nil => rfl
    | cons v vs =>
      have hpositive : dimensions ≠ 0 := by
        rintro rfl
        cases hlength
      have hunsized : element.exactSize = none →
          encodeEach .standard none .vintSized (v :: vs) [] =
            encodeEach .standard (some element) (vectorFraming element.exactSize) (v :: vs) [] := by
        intro hsize
        rw [hsize]
        exact encodeEach_congr fun v hv => ih v (heach v hv)
      rw [encode_untyped_vector vs (heach v (List.mem_cons_self ..))]
      rcases hframed with hzero | hsize | ⟨type, rfl⟩
      · exact absurd hzero hpositive
      · cases element with
        | native type => rfl
        | _ => exact hunsized hsize
      · rfl

end Containers

/-- If the values of a type tell all of it, each of them is written alike with and without the type,
or refused alike; and whatever is read by the type is such a value. -/
theorem encode_without_type {type : CqlType} (h : type.Inferable) :
    (∀ v, type.Describes v →
      Registry.standard.encode v none = Registry.standard.encode v (some type)) ∧
    ∀ bytes v, Registry.standard.decode type bytes = .ok v → type.Describes v := by
  refine ⟨?alike, fun _ _ => describes_of_decode⟩
  case alike =>
    induction h with
    | native type => exact native_writesAlike type
    | list _ ih => exact list_writesAlike ih
    | set _ ih => exact set_writesAlike ih
    | map _ _ ihk ihv => exact map_writesAlike ihk ihv
    | tuple _ ih => exact tuple_writesAlike ih
    | udt hdistinct _ ih => exact udt_writesAlike hdistinct ih
    | vector hpart hframed ih => exact vector_writesAlike hpart.sizeFits.1 ih hframed

/-- A user type over a map of lists, a vector of texts and an empty vector. -/
theorem encode_without_type_udt :
    let type := CqlType.udt "ks" "item" [("tags", .map (.native .text) (.list (.native .int))),
      ("near", .vector (.native .text) 1), ("late", .vector (.vector (.native .float) 3) 0)]
    let v := Value.udt "ks" "item" [("tags", some (.map [(.text "a", .list [.int 7])])),
      ("near", some (.vector [.text "b"])), ("late", none)]
    type.Inferable ∧ Registry.standard.encode v none = Registry.standard.encode v (some type) := by
  intro type v
  have hinferable : type.Inferable := by
    refine .udt (by decide) ?_
    simp only [List.forall_mem_cons]
    refine ⟨.map (.native _) (.list (.native _)), .vector (.native _) (.inr (.inl rfl)),
      .vector (.vector (.native _) (.inr (.inr ⟨_, rfl⟩))) (.inl rfl), by simp⟩
  obtain ⟨halike, hdescribes⟩ := encode_without_type hinferable
  have hread : Registry.standard.decode type [0, 0, 0, 25, 0, 0, 0, 1, 0, 0, 0, 1, 97, 0, 0, 0, 12,
      0, 0, 0, 1, 0, 0, 0, 4, 0, 0, 0, 7, 0, 0, 0, 2, 1, 98] = .ok v := rfl
  exact ⟨hinferable, halike v (hdescribes _ v hread)⟩

/-- Fields of one name are written with the first value of the name, each under its own when there
is no type; a vector of vectors of a fixed size has its elements bare, or behind their length. -/
theorem encode_without_type_differs :
    (let type := CqlType.udt "ks" "t" [("a", .native .int), ("a", .native .int)]
      let v := Value.udt "ks" "t" [("a", some (.int 1)), ("a", some (.int 2))]
      Registry.standard.decode type [0, 0, 0, 4, 0, 0, 0, 1, 0, 0, 0, 4, 0, 0, 0, 2] = .ok v ∧
      Registry.standard.encode v none = .ok [0, 0, 0, 4, 0, 0, 0, 1, 0, 0, 0, 4, 0, 0, 0, 2] ∧
      Registry.standard.encode v (some type) =
        .ok [0, 0, 0, 4, 0, 0, 0, 1, 0, 0, 0, 4, 0, 0, 0, 1]) ∧
    (let type := CqlType.vector (.vector (.native .float) 1) 1
      let v := Value.vector [.vector [.float 0]]
      Registry.standard.decode type [0, 0, 0, 0] = .ok v ∧
      Registry.standard.encode v none = .ok [4, 0, 0, 0, 0] ∧
      Registry.standard.encode v (some type) = .ok [0, 0, 0, 0]) :=
  ⟨⟨rfl, rfl, rfl⟩, rfl, rfl, rfl⟩

end CqlClient
