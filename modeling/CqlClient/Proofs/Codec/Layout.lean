import CqlClient.Proofs.Codec.Stable

/-!
# What is asked of a registry to write a value

A coding goes back to the registry for the parts of a value, and for nothing else. What it hands
over is laid out beforehand by the coding, the value and its described type alone:

* `Coding.layout`: the portions that a coding has a value written in;
* `encodeWith_eq_layout`: what it writes is what the registry makes of the portions, in a row;
* `handed_of_layout`: every portion is of a part of the value, and by a part of the described type
  if the coding is made for such types;
* `Value.inductionOn`: induction on values, by their parts.
-/

namespace CqlClient

open Codec

/-! ## Parts of values -/

namespace Value

/-- The values that a value is directly built from. -/
def parts : Value → List Value
  | list elements | set elements | vector elements => elements
  | map entries => entries.flatMap fun entry => [entry.1, entry.2]
  | tuple fields => fields.filterMap id
  | udt _ _ fields => fields.filterMap Prod.snd
  | _ => []

/-- A value is a part of another one, or that value itself. -/
inductive Occurs (part : Value) : Value → Prop
  | here : Occurs part part
  | inside {child whole : Value} (member : child ∈ whole.parts) (deeper : Occurs part child) :
    Occurs part whole

theorem sizeOf_part {part v : Value} (h : part ∈ v.parts) : sizeOf part < sizeOf v := by
  cases v with
  | list vs | set vs | vector vs =>
    have hsize := List.sizeOf_lt_of_mem (show part ∈ vs from h)
    simp
    omega
  | map entries =>
    obtain ⟨⟨k, w⟩, hentry, hpart⟩ := List.mem_flatMap.mp h
    have hsize := List.sizeOf_lt_of_mem hentry
    simp at hpart hsize ⊢
    rcases hpart with rfl | rfl <;> omega
  | tuple fields =>
    obtain ⟨field, hfield, hpart⟩ := List.mem_filterMap.mp h
    have hsize := List.sizeOf_lt_of_mem hfield
    rw [show field = some part from hpart] at hsize
    simp at hsize ⊢
    omega
  | udt keyspace name fields =>
    obtain ⟨⟨other, field⟩, hfield, hpart⟩ := List.mem_filterMap.mp h
    have hsize := List.sizeOf_lt_of_mem hfield
    rw [show field = some part from hpart] at hsize
    simp at hsize ⊢
    omega
  | _ => cases h

/-- Induction on values, with a hypothesis for every value that a value is built from. -/
@[elab_as_elim]
theorem inductionOn {P : Value → Prop} (step : ∀ v, (∀ part ∈ v.parts, P part) → P v) (v : Value) :
    P v :=
  step v fun part _ => inductionOn step part
termination_by sizeOf v
decreasing_by exact sizeOf_part ‹_›

/-- No value is by itself of a type without a coding. -/
theorem coding_of_code (v : Value) : ∃ coding, Coding.ofCode? v.code = some coding := by
  cases v <;> exact ⟨_, rfl⟩

theorem code_of_toNative? {v : Value} {native : Native} (h : v.code.toNative? = some native) :
    v.code = .native native := by
  cases v <;> cases h <;> rfl

end Value

/-! ## Portions -/

/-- A part that a coding hands over, or null in its place. -/
structure Portion where
  field : Option Value
  type : Option CqlType
  framing : Framing

/-- The portions of a value, and the bytes in front of them. -/
structure Layout where
  front : Bytes
  portions : List Portion

namespace Codec

/-- The first field of the name, by its declared type. -/
def declaredPortion (fields : List (String × Option Value)) (declared : String × CqlType) :
    Portion :=
  ⟨(fields.lookup declared.1).join, some declared.2, .sized⟩

/-- The portions of an entry: its key, then its value. -/
def entryPortions (keyType valueType : Option CqlType) (entry : Value × Value) : List Portion :=
  [⟨some entry.1, keyType, .sized⟩, ⟨some entry.2, valueType, .sized⟩]

/-- Fields in declared order, or else in their own. -/
def fieldLayout (type : Option CqlType) (fields : List (String × Option Value)) :
    Except EncodeFault Layout :=
  match type with
  | some (.udt _ typeName types) =>
    match undeclared? types fields with
    | some field => .error (.unknownField typeName field)
    | none => .ok ⟨[], types.map (declaredPortion fields)⟩
  | _ => .ok ⟨[], fields.map fun field => ⟨field.2, none, .sized⟩⟩

end Codec

/-- How a coding has a value written. -/
def Coding.layout : Coding → Option CqlType → Value → Except EncodeFault Layout
  | .native scalar, _, v => (⟨·, []⟩) <$> Scalar.encode scalar v
  | .list, type, .list vs | .set, type, .list vs | .list, type, .set vs | .set, type, .set vs => do
    let front ← count vs.length
    return ⟨front, vs.map fun v => ⟨some v, type.bind CqlType.element?, .sized⟩⟩
  | .map, type, .map entries => do
    let front ← count entries.length
    let types := type.bind CqlType.mapTypes?
    return ⟨front, entries.flatMap (entryPortions (types.map (·.1)) (types.map (·.2)))⟩
  | .tuple, type, .tuple fields => do
    checkTupleWidth type fields.length
    return ⟨[], fields.zipIdx.map fun field =>
      ⟨field.1, type.bind (·.tupleElement? field.2), .sized⟩⟩
  | .udt, type, .udt _ _ fields => fieldLayout type fields
  | .vector, type, .vector vs | .vector, type, .list vs => do
    let element ← vectorElement type vs
    let size ← elementSize element
    return ⟨[], vs.map fun v => ⟨some v, element, vectorFraming size⟩⟩
  | coding, _, v => .error (.typeMismatch coding.code v.kind)

def Registry.writePortion (r : Registry) (portion : Portion) : Except EncodeFault Bytes :=
  match portion.field with
  | none => .ok Wire.null
  | some v => r.encodeFramed portion.framing portion.type v

/-- All portions in a row. -/
def Registry.writeLayout (r : Registry) (layout : Layout) : Except EncodeFault Bytes :=
  (fun parts => layout.front ++ parts.flatten) <$> layout.portions.mapM r.writePortion

theorem writePortion_sized (r : Registry) (field : Option Value) (type : Option CqlType) :
    r.writePortion ⟨field, type, .sized⟩ = r.encodeSized field type := by
  cases field <;> rfl

section Written

variable (r : Registry) (type : Option CqlType)

/-- Elements behind their count. -/
theorem written_counted (vs : List Value) (element : Option CqlType) :
    (do
      let front ← count vs.length
      let rest ← encodeEach r element .sized vs []
      return front ++ rest) = (do
      let front ← count vs.length
      return ⟨front, vs.map fun v => ⟨some v, element, .sized⟩⟩) >>= r.writeLayout := by
  rw [encodeEach_eq, bind_assoc]
  congr 1
  funext front
  rw [pure_bind, Registry.writeLayout, List.mapM_map, bind_map_left, bind_pure_comp]
  rfl

theorem written_vector (vs : List Value) :
    (do
      let element ← vectorElement type vs
      let size ← elementSize element
      encodeEach r element (vectorFraming size) vs []) = (do
      let element ← vectorElement type vs
      let size ← elementSize element
      return ⟨[], vs.map fun v => ⟨some v, element, vectorFraming size⟩⟩) >>=
        r.writeLayout := by
  rw [bind_assoc]
  congr 1
  funext element
  rw [bind_assoc]
  congr 1
  funext size
  rw [encodeEach_eq, pure_bind, Registry.writeLayout, List.mapM_map]
  rfl

theorem mapM_entries (keyType valueType : Option CqlType) (entries : List (Value × Value)) :
    List.flatten <$> entries.mapM (r.encodeEntry keyType valueType) =
      List.flatten <$> (entries.flatMap (entryPortions keyType valueType)).mapM r.writePortion := by
  induction entries with
  | nil => rfl
  | cons entry entries ih =>
    have htail (front : Bytes) := congrArg (fun rest => (front ++ ·) <$> rest) ih
    simp only [Functor.map_map] at htail
    simp only [List.mapM_cons, List.flatMap_cons, entryPortions, List.cons_append, List.nil_append,
      Registry.encodeEntry, bind_assoc, pure_bind, map_bind, map_pure, List.flatten_cons,
      List.append_assoc]
    congr 1
    funext key
    congr 1
    funext value
    simpa only [bind_pure_comp, List.append_assoc] using htail (key ++ value)

theorem written_map (keyType valueType : Option CqlType) (entries : List (Value × Value)) :
    (do
      let front ← count entries.length
      let rest ← encodeEntries r keyType valueType entries []
      return front ++ rest) = (do
      let front ← count entries.length
      return ⟨front, entries.flatMap (entryPortions keyType valueType)⟩) >>= r.writeLayout := by
  rw [encodeEntries_eq, mapM_entries, bind_assoc]
  congr 1
  funext front
  rw [pure_bind, Registry.writeLayout, bind_map_left, bind_pure_comp]

theorem written_tuple (fields : List (Option Value)) :
    (do
      checkTupleWidth type fields.length
      encodeTuple r type 0 fields []) = (do
      checkTupleWidth type fields.length
      return ⟨[], fields.zipIdx.map fun field =>
        ⟨field.1, type.bind (·.tupleElement? field.2), .sized⟩⟩) >>= r.writeLayout := by
  rw [encodeTuple_eq, bind_assoc]
  congr 1
  funext
  rw [pure_bind, Registry.writeLayout, List.mapM_map]
  simp only [Function.comp_def, writePortion_sized]
  rfl

theorem written_declared (fields : List (String × Option Value))
    (types : List (String × CqlType)) :
    writeDeclared (fieldWriters r fields) types [] =
      r.writeLayout ⟨[], types.map (declaredPortion fields)⟩ := by
  rw [writeDeclared_eq, Registry.writeLayout, List.mapM_map]
  simp only [Function.comp_def, declaredPortion, writePortion_sized]
  rfl

theorem written_undeclared (fields : List (String × Option Value)) :
    writeUndeclared (fieldWriters r fields) [] =
      r.writeLayout ⟨[], fields.map fun field => ⟨field.2, none, .sized⟩⟩ := by
  rw [writeUndeclared_eq, Registry.writeLayout, List.mapM_map]
  simp only [Function.comp_def, writePortion_sized]
  rfl

end Written

/-- A coding has the registry write the portions, and writes nothing else but the front. -/
theorem encodeWith_eq_layout (r : Registry) (v : Value) (coding : Coding) (type : Option CqlType) :
    encodeWith r v coding type = coding.layout type v >>= r.writeLayout := by
  cases coding with
  | native scalar =>
    rw [encodeWith, Coding.layout]
    cases Scalar.encode scalar v with
    | error fault => rfl
    | ok bytes => exact (congrArg Except.ok (List.append_nil bytes)).symm
  | list =>
    cases v with
    | list vs => exact written_counted r vs _
    | set vs => exact written_counted r vs _
    | _ => rfl
  | set =>
    cases v with
    | list vs => exact written_counted r vs _
    | set vs => exact written_counted r vs _
    | _ => rfl
  | map =>
    cases v with
    | map entries => exact written_map r _ _ entries
    | _ => rfl
  | tuple =>
    cases v with
    | tuple fields => exact written_tuple r type fields
    | _ => rfl
  | udt =>
    cases v with
    | udt _ _ fields =>
      cases type with
      | none => exact written_undeclared r fields
      | some whole =>
        cases whole with
        | udt keyspace name types =>
          rw [encodeWith, Coding.layout, fieldLayout]
          cases undeclared? types fields with
          | some field => rfl
          | none => exact written_declared r fields types
        | _ => exact written_undeclared r fields
    | _ => rfl
  | vector =>
    cases v with
    | list vs => exact written_vector r type vs
    | vector vs => exact written_vector r type vs
    | _ => rfl

/-! ## What is handed over -/

/-- By what a coding has a part of a value written: by a part of the described type; or, if the
coding is not made for that type, by the native type of a part of the value or by none. -/
inductive Coding.Hands (coding : Coding) (type : Option CqlType) (v : Value) : Option CqlType → Prop
  | described {whole child : CqlType} (is : type = some whole) (member : child ∈ whole.children) :
    Hands coding type v (some child)
  | carried {part : Value} {native : Native} (member : part ∈ v.parts)
    (code : part.code = .native native) (other : ∀ whole ∈ type, whole.code ≠ coding.code) :
    Hands coding type v (some (.native native))
  | nothing (other : ∀ whole ∈ type, whole.code ≠ coding.code) : Hands coding type v none

/-- A portion that a coding hands over to have a value written. What is put around it needs no
registry. -/
structure Portion.Handed (coding : Coding) (type : Option CqlType) (v : Value) (portion : Portion) :
    Prop where
  part : ∀ part ∈ portion.field, part ∈ v.parts
  type : coding.Hands type v portion.type
  framing : ∀ part bytes cause, portion.framing part bytes ≠ .error (.registry cause)

theorem sized_ne_registry (v : Value) (bytes : Bytes) (cause : RegistryFault) :
    Framing.sized v bytes ≠ .error (.registry cause) := by
  unfold Framing.sized Wire.lengthPrefixed
  dsimp only
  split <;> rintro ⟨⟩

theorem vectorFraming_ne_registry (size : Option Nat) (v : Value) (bytes : Bytes)
    (cause : RegistryFault) : vectorFraming size v bytes ≠ .error (.registry cause) := by
  cases size with
  | none =>
    dsimp only [vectorFraming, Framing.vintSized]
    split <;> rintro ⟨⟩
  | some size =>
    dsimp only [vectorFraming, Framing.bare]
    split <;> rintro ⟨⟩

section Hands

variable {coding : Coding} {type : Option CqlType} {v : Value}

theorem hands_element (hmade : coding = .list ∨ coding = .set) :
    coding.Hands type v (type.bind CqlType.element?) := by
  cases type with
  | none => exact .nothing (by simp)
  | some whole =>
    cases whole with
    | list element | set element | vector element _ =>
      exact .described rfl (List.mem_singleton_self element)
    | _ =>
      apply Coding.Hands.nothing
      rintro _ ⟨⟩
      rcases hmade with rfl | rfl <;> simp [CqlType.code, Coding.code]

theorem hands_entry :
    Coding.map.Hands type v ((type.bind CqlType.mapTypes?).map (·.1)) ∧
      Coding.map.Hands type v ((type.bind CqlType.mapTypes?).map (·.2)) := by
  cases type with
  | none => exact ⟨.nothing (by simp), .nothing (by simp)⟩
  | some whole =>
    cases whole with
    | map key value =>
      exact ⟨.described rfl (by simp [CqlType.children]),
        .described rfl (by simp [CqlType.children])⟩
    | _ => exact ⟨.nothing (by simp [CqlType.code, Coding.code]),
        .nothing (by simp [CqlType.code, Coding.code])⟩

theorem hands_tupleElement {fields : List (Option Value)} {index : Nat}
    (hwidth : checkTupleWidth type fields.length = .ok ()) (hbound : index < fields.length) :
    Coding.tuple.Hands type v (type.bind (·.tupleElement? index)) := by
  cases type with
  | none => exact .nothing (by simp)
  | some whole =>
    cases whole with
    | tuple types =>
      rw [checkTupleWidth] at hwidth
      split at hwidth
      · next same =>
        rw [Option.bind_some, CqlType.tupleElement?, List.getElem?_eq_getElem (same ▸ hbound)]
        exact .described rfl (List.getElem_mem _)
      · cases hwidth
    | _ => exact .nothing (by simp [CqlType.code, Coding.code])

theorem hands_vectorElement {vs : List Value} {element : Option CqlType} (hparts : v.parts = vs)
    (h : vectorElement type vs = .ok element) : Coding.vector.Hands type v element := by
  have hcarried (hother : ∀ whole ∈ type, whole.code ≠ Coding.vector.code) :
      Coding.vector.Hands type v (vs.head?.bind (·.code.toNative?) |>.map .native) := by
    cases vs with
    | nil => exact .nothing hother
    | cons first rest =>
      rw [List.head?_cons, Option.bind_some]
      cases hnative : first.code.toNative? with
      | none => exact .nothing hother
      | some hnative =>
        exact .carried (by simp [hparts]) (Value.code_of_toNative? hnative) hother
  cases type with
  | none =>
    cases h
    exact hcarried (by simp)
  | some whole =>
    cases whole with
    | vector child dimensions =>
      rw [vectorElement] at h
      split at h
      · cases h
        exact .described rfl (List.mem_singleton_self child)
      · cases h
    | _ =>
      cases h
      exact hcarried (by simp [CqlType.code, Coding.code])

theorem handed_sized {field : Option Value} {child : Option CqlType}
    (hpart : ∀ part ∈ field, part ∈ v.parts) (hhands : coding.Hands type v child) :
    Portion.Handed coding type v ⟨field, child, .sized⟩ :=
  ⟨hpart, hhands, sized_ne_registry⟩

theorem part_of_lookup {keyspace name : String} {fields : List (String × Option Value)}
    (declared : String) :
    ∀ part ∈ (fields.lookup declared).join, part ∈ (Value.udt keyspace name fields).parts := by
  intro part h
  obtain ⟨field, hfound, rfl⟩ :
      ∃ field, fields.lookup declared = some field ∧ field = some part := by
    simpa [Option.join_eq_some_iff] using h
  obtain ⟨before, after, rfl, -⟩ := List.lookup_eq_some_iff.mp hfound
  exact List.mem_filterMap.mpr ⟨(declared, some part), by simp, rfl⟩

theorem handed_fields {keyspace name : String} {fields : List (String × Option Value)}
    {layout : Layout} (h : fieldLayout type fields = .ok layout) :
    ∀ portion ∈ layout.portions, portion.Handed .udt type (.udt keyspace name fields) := by
  have hundeclared (hother : ∀ whole ∈ type, whole.code ≠ Coding.udt.code) :
      ∀ field ∈ fields, Portion.Handed .udt type (.udt keyspace name fields)
        ⟨field.2, none, .sized⟩ := by
    intro field hmember
    apply handed_sized _ (.nothing hother)
    intro part heq
    exact List.mem_filterMap.mpr ⟨field, hmember, heq⟩
  cases type with
  | none =>
    cases h
    exact List.forall_mem_map.mpr (hundeclared (by simp))
  | some whole =>
    cases whole with
    | udt _ typeName types =>
      rw [fieldLayout] at h
      cases hfound : undeclared? types fields with
      | some field =>
        rw [hfound] at h
        cases h
      | none =>
        rw [hfound] at h
        cases h
        refine List.forall_mem_map.mpr fun declared hmember => ?_
        exact handed_sized (part_of_lookup declared.1)
          (.described rfl (List.mem_map_of_mem hmember))
    | _ =>
      cases h
      exact List.forall_mem_map.mpr (hundeclared (by simp [CqlType.code, Coding.code]))

theorem handed_entries {entries : List (Value × Value)} :
    ∀ portion ∈ entries.flatMap (entryPortions ((type.bind CqlType.mapTypes?).map (·.1))
      ((type.bind CqlType.mapTypes?).map (·.2))), portion.Handed .map type (.map entries) := by
  intro portion h
  obtain ⟨entry, hmember, h⟩ := List.mem_flatMap.mp h
  have hkey : entry.1 ∈ (Value.map entries).parts :=
    List.mem_flatMap.mpr ⟨entry, hmember, by simp⟩
  have hvalue : entry.2 ∈ (Value.map entries).parts :=
    List.mem_flatMap.mpr ⟨entry, hmember, by simp⟩
  simp only [entryPortions, List.mem_cons, List.not_mem_nil, or_false] at h
  rcases h with rfl | rfl
  · exact handed_sized (by simpa using hkey) hands_entry.1
  · exact handed_sized (by simpa using hvalue) hands_entry.2

theorem handed_elements {vs : List Value} (hparts : v.parts = vs)
    (hmade : coding = .list ∨ coding = .set) :
    ∀ portion ∈ vs.map fun v => (⟨some v, type.bind CqlType.element?, .sized⟩ : Portion),
      portion.Handed coding type v := by
  refine List.forall_mem_map.mpr fun part hmember => ?_
  exact handed_sized (by simpa [hparts] using hmember) (hands_element hmade)

theorem handed_components {vs : List Value} {element : Option CqlType} (hparts : v.parts = vs)
    (size : Option Nat) (hfound : vectorElement type vs = .ok element) :
    ∀ portion ∈ vs.map fun v => (⟨some v, element, vectorFraming size⟩ : Portion),
      portion.Handed .vector type v := by
  refine List.forall_mem_map.mpr fun part hmember => ?_
  exact ⟨by simpa [hparts] using hmember, hands_vectorElement hparts hfound,
    vectorFraming_ne_registry size⟩

/-- Whatever a coding hands over is a part of the value, and by a part of the described type unless
the coding is not made for that type. -/
theorem handed_of_layout {layout : Layout} (h : coding.layout type v = .ok layout) :
    ∀ portion ∈ layout.portions, portion.Handed coding type v := by
  cases coding with
  | native scalar =>
    obtain ⟨bytes, -, rfl⟩ := map_eq_ok.mp h
    exact List.forall_mem_nil _
  | list =>
    cases v with
    | list vs | set vs =>
      obtain ⟨front, -, h⟩ := bind_eq_ok.mp h
      cases h
      exact handed_elements rfl (.inl rfl)
    | _ => cases h
  | set =>
    cases v with
    | list vs | set vs =>
      obtain ⟨front, -, h⟩ := bind_eq_ok.mp h
      cases h
      exact handed_elements rfl (.inr rfl)
    | _ => cases h
  | map =>
    cases v with
    | map entries =>
      obtain ⟨front, -, h⟩ := bind_eq_ok.mp h
      cases h
      exact handed_entries
    | _ => cases h
  | tuple =>
    cases v with
    | tuple fields =>
      obtain ⟨_, hwidth, h⟩ := bind_eq_ok.mp h
      cases h
      refine List.forall_mem_map.mpr fun field hmember => ?_
      obtain ⟨hbound, heq⟩ := List.mem_zipIdx' hmember
      refine handed_sized (fun part hisPart => ?_) (hands_tupleElement hwidth hbound)
      exact List.mem_filterMap.mpr ⟨field.1, heq ▸ List.getElem_mem hbound, hisPart⟩
    | _ => cases h
  | udt =>
    cases v with
    | udt keyspace name fields => exact handed_fields h
    | _ => cases h
  | vector =>
    cases v with
    | list vs | vector vs =>
      obtain ⟨element, hfound, h⟩ := bind_eq_ok.mp h
      obtain ⟨size, -, h⟩ := bind_eq_ok.mp h
      cases h
      exact handed_components (show _ = vs from rfl) size hfound
    | _ => cases h

end Hands

end CqlClient
