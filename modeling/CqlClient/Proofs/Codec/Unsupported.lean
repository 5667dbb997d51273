import CqlClient.Proofs.Codec.Layout
import CqlClient.Proofs.Row.Reading
import CqlClient.Session.Cursor

/-!
# What the standard registry does not support

Only custom types are without a codec, and no codec goes back to the registry without a type that
its own type is built from, so the faults of the registry are told by the type alone:

* `blames_of_decode`, `blames_of_encode`: reading and writing by a type fail so only at a custom
  class that the type is built from;
* `encode_untyped_ne_registry`: writing without a type never does;
* `registry_faults`: with all that callers can tell from the category of a fault.
-/

namespace CqlClient

open Codec Scalar

/-- The fault refuses a custom class that the type is built from. -/
def RegistryFault.Blames (type : CqlType) (fault : RegistryFault) : Prop :=
  ∃ className, CqlType.Occurs (.custom className) type ∧
    fault = .unsupportedType (CqlType.custom className).text

theorem RegistryFault.Blames.inside {child type : CqlType} {fault : RegistryFault}
    (h : fault.Blames child) (hmember : child ∈ type.children) : fault.Blames type := by
  obtain ⟨className, hoccurs, rfl⟩ := h
  exact ⟨className, .inside hmember hoccurs, rfl⟩

theorem standard_codec? (type : CqlType) :
    (∃ coding, Registry.standard.codec? type.code = some ⟨coding, coding⟩ ∧
      coding.code = type.code) ∨ ∃ className, type = .custom className := by
  cases type with
  | custom className => exact .inr ⟨className, rfl⟩
  | _ => exact .inl ⟨_, rfl, rfl⟩

/-! ## Reading -/

section Read

/-- A fault of reading that is the registry's is of the kind. -/
def DecodeFault.OfRegistry (kind : RegistryFault → Prop) (fault : DecodeFault) : Prop :=
  ∀ cause, fault = .registry cause → kind cause

variable {kind : RegistryFault → Prop}

theorem ofRegistry_invalid (fault : ValueFault) : (DecodeFault.invalid fault).OfRegistry kind :=
  nofun

theorem faultsIn_wire {α : Type} (r : Wire.WireReader α) :
    Reader.FaultsIn (DecodeFault.OfRegistry kind) (wire r) :=
  Reader.faultsIn_mapError (fun _ => ofRegistry_invalid _) r

theorem faultsIn_nothingLeft (what : String) :
    Reader.FaultsIn (DecodeFault.OfRegistry kind) (nothingLeft what) := by
  refine Reader.FaultsIn.bind (r := Reader.rest) nofun fun rest => ?_
  cases rest.isEmpty with
  | true => exact Reader.faultsIn_pure ()
  | false => exact Reader.faultsIn_throw (ofRegistry_invalid _)

theorem faultsIn_narrow (n : Int64) : Reader.FaultsIn (DecodeFault.OfRegistry kind) (narrow n) := by
  unfold narrow
  split
  · exact Reader.faultsIn_throw (ofRegistry_invalid _)
  · split
    · exact Reader.faultsIn_throw (ofRegistry_invalid _)
    · exact Reader.faultsIn_pure _

theorem faultsIn_scalar (type : Native) (bytes : Bytes) :
    FaultsIn (DecodeFault.OfRegistry kind) (Scalar.decode type bytes) := by
  have hexact (size : Nat) (type : Native) :
      FaultsIn (DecodeFault.OfRegistry kind) (exactly size type bytes) := by
    unfold exactly
    split
    · exact faultsIn_ok _
    · exact faultsIn_error (ofRegistry_invalid _)
  have htext : FaultsIn (DecodeFault.OfRegistry kind) (Scalar.text bytes) := by
    unfold Scalar.text
    cases Utf8.decode bytes with
    | ok s => exact faultsIn_ok s
    | error fault => exact faultsIn_error (ofRegistry_invalid _)
  cases type with
  | blob => exact faultsIn_ok _
  | text => exact htext.bind fun _ _ => faultsIn_ok _
  | ascii =>
    rw [Scalar.decode]
    split
    · exact htext.bind fun _ _ => faultsIn_ok _
    · exact faultsIn_error (ofRegistry_invalid _)
  | inet =>
    rw [Scalar.decode]
    split
    · exact faultsIn_ok _
    · exact faultsIn_ok _
    · exact faultsIn_error (ofRegistry_invalid _)
  | time =>
    refine (hexact 8 .time).bind fun _ _ => ?_
    dsimp only
    split
    · exact faultsIn_ok _
    · exact faultsIn_error (ofRegistry_invalid _)
  | varint =>
    rw [Scalar.decode]
    split
    · exact faultsIn_error (ofRegistry_invalid _)
    · exact faultsIn_ok _
  | decimal =>
    rw [Scalar.decode]
    split
    · exact faultsIn_error (ofRegistry_invalid _)
    · exact faultsIn_ok _
  | duration =>
    have hparts : Reader.FaultsIn (DecodeFault.OfRegistry kind) duration :=
      (faultsIn_wire _).bind fun months => (faultsIn_wire _).bind fun days =>
        (faultsIn_wire _).bind fun nanoseconds => (faultsIn_nothingLeft _).bind fun _ =>
          (faultsIn_narrow _).bind fun _ => (faultsIn_narrow _).bind fun _ =>
            Reader.faultsIn_pure _
    exact (hparts.outcome bytes).bind fun _ _ => faultsIn_ok _
  | _ => exact (hexact _ _).bind fun _ _ => faultsIn_ok _

theorem faultsIn_readCount : Reader.FaultsIn (DecodeFault.OfRegistry kind) readCount := by
  refine (faultsIn_wire _).bind fun n => ?_
  split
  · exact Reader.faultsIn_throw (ofRegistry_invalid _)
  · exact Reader.faultsIn_pure _

variable {decode decodeKey decodeValue : PartDecoder}

section Parts

variable (hpart : ∀ bytes, FaultsIn (DecodeFault.OfRegistry kind) (decode bytes))
include hpart

theorem faultsIn_readElement :
    Reader.FaultsIn (DecodeFault.OfRegistry kind) (readElement decode) := by
  refine (faultsIn_wire _).bind fun bytes => ?_
  cases bytes with
  | none => exact Reader.faultsIn_throw nofun
  | some bytes => exact Reader.faultsIn_ofExcept (hpart bytes)

theorem faultsIn_readField : Reader.FaultsIn (DecodeFault.OfRegistry kind) (readField decode) := by
  refine (faultsIn_wire _).bind fun bytes => ?_
  cases bytes with
  | none => exact Reader.faultsIn_pure none
  | some bytes =>
    exact (Reader.faultsIn_ofExcept (hpart bytes)).bind fun v => Reader.faultsIn_pure (some v)

theorem faultsIn_readLateField :
    Reader.FaultsIn (DecodeFault.OfRegistry kind) (readLateField decode) := by
  refine Reader.FaultsIn.bind (r := Reader.rest) nofun fun rest => ?_
  cases rest.isEmpty with
  | true => exact Reader.faultsIn_pure none
  | false => exact faultsIn_readField hpart

theorem faultsIn_readComponent (size : Option Nat) :
    Reader.FaultsIn (DecodeFault.OfRegistry kind) (readComponent size decode) := by
  have hsized (n : Nat) : Reader.FaultsIn (DecodeFault.OfRegistry kind)
      (do Reader.ofExcept (decode (← wire (Wire.raw n)))) :=
    (faultsIn_wire _).bind fun bytes => Reader.faultsIn_ofExcept (hpart bytes)
  cases size with
  | some n => exact hsized n
  | none => exact ((faultsIn_wire _).bind fun n => Reader.faultsIn_pure _).bind hsized

theorem faultsIn_elements : Reader.FaultsIn (DecodeFault.OfRegistry kind) (elements decode) :=
  faultsIn_readCount.bind fun n => ((faultsIn_readElement hpart).times n).bind fun values =>
    (faultsIn_nothingLeft _).bind fun _ => Reader.faultsIn_pure values

theorem faultsIn_components (dimensions : Nat) (size : Option Nat) :
    Reader.FaultsIn (DecodeFault.OfRegistry kind) (components dimensions size decode) :=
  ((faultsIn_readComponent hpart size).times dimensions).bind fun values =>
    (faultsIn_nothingLeft _).bind fun _ => Reader.faultsIn_pure values

end Parts

theorem faultsIn_entries (hkey : ∀ bytes, FaultsIn (DecodeFault.OfRegistry kind) (decodeKey bytes))
    (hvalue : ∀ bytes, FaultsIn (DecodeFault.OfRegistry kind) (decodeValue bytes)) :
    Reader.FaultsIn (DecodeFault.OfRegistry kind) (entries decodeKey decodeValue) := by
  have hentry : Reader.FaultsIn (DecodeFault.OfRegistry kind)
      (do return (← readElement decodeKey, ← readElement decodeValue)) :=
    (faultsIn_readElement hkey).bind fun k => (faultsIn_readElement hvalue).bind fun v =>
      Reader.faultsIn_pure (k, v)
  exact faultsIn_readCount.bind fun n => (hentry.times n).bind fun pairs =>
    (faultsIn_nothingLeft _).bind fun _ => Reader.faultsIn_pure pairs

end Read

theorem blames_part (type : CqlType) {child : CqlType} (hmember : child ∈ type.children)
    {decode : PartDecoder}
    (h : ∀ bytes, FaultsIn (DecodeFault.OfRegistry (RegistryFault.Blames child)) (decode bytes))
    (bytes : Bytes) :
    FaultsIn (DecodeFault.OfRegistry (RegistryFault.Blames type)) (decode bytes) :=
  (h bytes).mono fun _ hwithin cause heq => (hwithin cause heq).inside hmember

/-- Bytes are refused by the registry only for a custom class in the type. -/
theorem blames_of_decode (type : CqlType) (bytes : Bytes) :
    FaultsIn (DecodeFault.OfRegistry (RegistryFault.Blames type))
      (Registry.standard.decode type bytes) := by
  induction type using CqlType.inductionOn generalizing bytes with
  | native type => exact faultsIn_scalar type bytes
  | custom className =>
    apply faultsIn_error
    rintro _ ⟨⟩
    exact ⟨className, .here, rfl⟩
  | list element ih =>
    have hpart := blames_part (.list element) (List.mem_singleton_self element) ih
    exact ((faultsIn_elements hpart).outcome bytes).bind fun _ _ => faultsIn_ok _
  | set element ih =>
    have hpart := blames_part (.set element) (List.mem_singleton_self element) ih
    exact ((faultsIn_elements hpart).outcome bytes).bind fun _ _ => faultsIn_ok _
  | map key value ihk ihv =>
    have hkeyPart := blames_part (.map key value) (by simp [CqlType.children]) ihk
    have hvaluePart := blames_part (.map key value) (by simp [CqlType.children]) ihv
    exact ((faultsIn_entries hkeyPart hvaluePart).outcome bytes).bind fun _ _ => faultsIn_ok _
  | tuple types ih =>
    have hfields : Reader.FaultsIn (DecodeFault.OfRegistry (RegistryFault.Blames (.tuple types)))
        (decodeTuple .standard types []) := by
      rw [decodeTuple_eq]
      refine (Reader.FaultsIn.mapM fun type hmember => ?_).bind fun fields =>
        (faultsIn_nothingLeft _).bind fun _ => Reader.faultsIn_pure _
      exact faultsIn_readField (blames_part (.tuple types) hmember (ih type hmember))
    exact (hfields.outcome bytes).bind fun _ _ => faultsIn_ok _
  | udt keyspace name types ih =>
    have hfields : Reader.FaultsIn
        (DecodeFault.OfRegistry (RegistryFault.Blames (.udt keyspace name types)))
        (decodeFields .standard types []) := by
      rw [decodeFields_eq]
      refine (Reader.FaultsIn.mapM fun field hmember => ?_).bind fun fields =>
        (faultsIn_nothingLeft _).bind fun _ => Reader.faultsIn_pure _
      have hpart := blames_part (.udt keyspace name types) (List.mem_map_of_mem hmember)
        (ih field hmember)
      exact (faultsIn_readLateField hpart).bind fun v => Reader.faultsIn_pure (field.1, v)
    exact (hfields.outcome bytes).bind fun _ _ => faultsIn_ok _
  | vector element dimensions ih =>
    have hpart := blames_part (.vector element dimensions) (List.mem_singleton_self element) ih
    rw [decode_vector]
    cases element.fixedSize with
    | ok size => exact ((faultsIn_components hpart _ size).outcome bytes).map _
    | error cause => exact faultsIn_error fun cause heq => by cases heq

/-! ## Writing -/

/-- A fault of writing that is the registry's is of the kind. -/
def EncodeFault.OfRegistry (kind : RegistryFault → Prop) (fault : EncodeFault) : Prop :=
  ∀ cause, fault = .registry cause → kind cause

section Write

variable {kind : RegistryFault → Prop} {coding : Coding} {type : Option CqlType} {v : Value}

theorem scalar_ne_registry (scalar : Native) (v : Value) (cause : RegistryFault) :
    Scalar.encode scalar v ≠ .error (.registry cause) := by
  intro h
  cases scalar with
  | ascii | time =>
    cases v <;> try cases h
    all_goals
      simp only [Scalar.encode] at h
      split at h <;> cases h
  | _ => cases v <;> cases h

theorem faultsIn_count (n : Nat) : FaultsIn (EncodeFault.OfRegistry kind) (count n) := by
  unfold count
  split
  · exact faultsIn_ok _
  · exact faultsIn_error nofun

theorem faultsIn_checkTupleWidth (width : Nat) :
    FaultsIn (EncodeFault.OfRegistry kind) (checkTupleWidth type width) := by
  unfold checkTupleWidth
  split
  · split
    · exact faultsIn_ok _
    · exact faultsIn_error nofun
  · exact faultsIn_ok _

theorem faultsIn_vectorElement (vs : List Value) :
    FaultsIn (EncodeFault.OfRegistry kind) (vectorElement type vs) := by
  unfold vectorElement
  split
  · split
    · exact faultsIn_ok _
    · exact faultsIn_error nofun
  · exact faultsIn_ok _

theorem faultsIn_elementSize (element : Option CqlType) :
    FaultsIn (EncodeFault.OfRegistry kind) (elementSize element) := by
  cases element with
  | none => exact faultsIn_ok _
  | some type =>
    rw [elementSize]
    cases type.fixedSize with
    | ok size => exact faultsIn_ok size
    | error cause => exact faultsIn_error nofun

theorem faultsIn_fieldLayout (fields : List (String × Option Value)) :
    FaultsIn (EncodeFault.OfRegistry kind) (fieldLayout type fields) := by
  unfold fieldLayout
  split
  · split
    · exact faultsIn_error nofun
    · exact faultsIn_ok _
  · exact faultsIn_ok _

theorem faultsIn_mismatch {α : Type} (expected : TypeCode) (found : String) :
    FaultsIn (EncodeFault.OfRegistry kind) (.error (.typeMismatch expected found) : Except _ α) :=
  faultsIn_error nofun

/-- The registry is not asked for anything before the portions are written. -/
theorem faultsIn_layout : FaultsIn (EncodeFault.OfRegistry kind) (coding.layout type v) := by
  cases coding with
  | native scalar =>
    refine FaultsIn.map _ fun fault hfailed cause heq => ?_
    exact absurd (heq ▸ hfailed) (scalar_ne_registry scalar v cause)
  | list | set =>
    cases v with
    | list vs | set vs => exact (faultsIn_count _).bind fun _ _ => faultsIn_ok _
    | _ => exact faultsIn_mismatch _ _
  | map =>
    cases v with
    | map entries => exact (faultsIn_count _).bind fun _ _ => faultsIn_ok _
    | _ => exact faultsIn_mismatch _ _
  | tuple =>
    cases v with
    | tuple fields => exact (faultsIn_checkTupleWidth _).bind fun _ _ => faultsIn_ok _
    | _ => exact faultsIn_mismatch _ _
  | udt =>
    cases v with
    | udt keyspace name fields => exact faultsIn_fieldLayout fields
    | _ => exact faultsIn_mismatch _ _
  | vector =>
    cases v with
    | list vs | vector vs =>
      exact (faultsIn_vectorElement _).bind fun element _ =>
        (faultsIn_elementSize element).bind fun _ _ => faultsIn_ok _
    | _ => exact faultsIn_mismatch _ _

/-- What the registry has against a value it has against one of the portions. -/
theorem faultsIn_encodeWith {r : Registry}
    (heach : ∀ portion : Portion, portion.Handed coding type v → ∀ part ∈ portion.field,
      FaultsIn (EncodeFault.OfRegistry kind) (r.encode part portion.type)) :
    FaultsIn (EncodeFault.OfRegistry kind) (encodeWith r v coding type) := by
  rw [encodeWith_eq_layout]
  refine faultsIn_layout.bind fun layout hlaid => ?_
  refine (FaultsIn.mapM fun portion hmember => ?_).map _
  have hportion := handed_of_layout hlaid portion hmember
  unfold Registry.writePortion
  cases heq : portion.field with
  | none => exact faultsIn_ok _
  | some part =>
    refine (heach portion hportion part heq).bind fun bytes _ => ?_
    intro fault hfailed cause heq
    exact absurd (heq ▸ hfailed) (hportion.framing part bytes cause)

end Write

/-- A value is refused by the registry only for a custom class in the type. -/
theorem blames_of_encode (type : CqlType) (v : Value) :
    FaultsIn (EncodeFault.OfRegistry (RegistryFault.Blames type))
      (Registry.standard.encode v (some type)) := by
  induction type using CqlType.inductionOnChildren generalizing v with
  | step type ih =>
    rcases standard_codec? type with ⟨coding, hfound, hmade⟩ | ⟨className, rfl⟩
    · have hwritten : Registry.standard.encode v (some type) =
          encodeWith .standard v coding (some type) := by
        simp [Registry.encode, Registry.encoder, Registry.codecFor, hfound, Except.map]
      rw [hwritten]
      refine faultsIn_encodeWith fun portion hportion part heq => ?_
      have hhands := hportion.type
      generalize portion.type = described at hhands ⊢
      cases hhands with
      | described heq hmember =>
        cases heq
        exact (ih _ hmember part).mono fun _ hwithin cause heq => (hwithin cause heq).inside hmember
      | carried _ _ hother => exact absurd hmade.symm (hother type rfl)
      | nothing hother => exact absurd hmade.symm (hother type rfl)
    · apply faultsIn_error
      rintro _ ⟨⟩
      exact ⟨className, .here, rfl⟩

/-- A value that is written by what it is itself is never refused by the registry. -/
theorem encode_untyped_ne_registry (v : Value) :
    FaultsIn (EncodeFault.OfRegistry fun _ => False) (Registry.standard.encode v none) := by
  induction v using Value.inductionOn with
  | step v ih =>
    obtain ⟨coding, hfound⟩ := v.coding_of_code
    have hwritten : Registry.standard.encode v none = encodeWith .standard v coding none := by
      simp [Registry.encode, Registry.encoder, Registry.codecFor, Registry.standard, Codec.ofCode?,
        hfound, Except.map]
    rw [hwritten]
    refine faultsIn_encodeWith fun portion hportion part heq => ?_
    have hhands := hportion.type
    generalize portion.type = described at hhands ⊢
    cases hhands with
    | described heq _ => cases heq
    | carried =>
      rw [encode_native]
      intro fault hfailed cause heq
      exact scalar_ne_registry _ _ cause (heq ▸ hfailed)
    | nothing => exact ih part (hportion.part part heq)

/-! ## Rows -/

/-- A row is refused by the registry only for a custom class in the type of a column. -/
theorem Row.blames_of_read {columns : Columns} {bytes left : Bytes} {fault : RowDecodeFault}
    {cause : RegistryFault} (h : Row.read .standard columns bytes = .error fault left)
    (heq : fault.fault = .registry cause) :
    (∃ column ∈ columns, column.type = fault.type) ∧ cause.Blames fault.type := by
  obtain ⟨outcome, hreading⟩ := Row.exists_reading .standard columns bytes
  obtain rfl : outcome = .error fault left := hreading.read_eq.symm.trans h
  cases hreading with
  | cut => cases heq
  | @refused cells rest before after row column cell refusal hframed hwhole hsplit hearlier
      hfirst =>
    have hmember : (column, cell) ∈ columns.zip cells := by simp [hsplit]
    refine ⟨⟨column, (List.of_mem_zip hmember).1, rfl⟩, ?_⟩
    cases hfirst with
    | value htold hdecoded => exact blames_of_decode _ _ _ hdecoded cause heq

theorem refused_of_writeBound {r : Registry} {type : Option CqlType} {bound : Bound Value}
    {row : RowWriter} {left : CellWriter} {cause : RegistryFault}
    (h : CellWriter.writeBound (r.append type) bound row.cell = .error (.registry cause) left) :
    ∃ v, bound = .value v ∧ r.encode v type = .error (.registry cause) := by
  cases bound with
  | null =>
    rw [CellWriter.writeBound, EStateM.adaptExcept, CellWriter.writeNull_fresh rfl] at h
    cases h
  | unset =>
    rw [CellWriter.writeBound, EStateM.adaptExcept, CellWriter.writeUnset_fresh rfl] at h
    cases h
  | value v =>
    refine ⟨v, rfl, ?_⟩
    simp only [CellWriter.writeBound, Draft.beginValue_fresh row.cell rfl, Registry.append] at h
    cases hwritten : r.encode v type with
    | error fault =>
      simp only [hwritten] at h
      cases h
      rfl
    | ok bytes =>
      simp only [hwritten] at h
      split at h <;> cases h

theorem refused_of_writeAll {r : Registry} {row : RowWriter} {index position : Nat}
    {values : List (Bound Value × Option CqlType)} {cause : RegistryFault}
    (h : BoundRow.writeAll r row index values = .error (.encode position (.registry cause))) :
    ∃ value ∈ values, ∃ v, value.1 = .value v ∧
      r.encode v value.2 = .error (.registry cause) := by
  induction values generalizing row index with
  | nil => cases h
  | cons value values ih =>
    obtain ⟨bound, type⟩ := value
    rw [BoundRow.writeAll] at h
    split at h
    · next hwritten =>
      cases h
      obtain ⟨v, heq, hrefused⟩ := refused_of_writeBound hwritten
      exact ⟨_, List.mem_cons_self .., v, heq, hrefused⟩
    · obtain ⟨value, hmember, hrefused⟩ := ih h
      exact ⟨value, List.mem_cons_of_mem _ hmember, hrefused⟩

theorem category_eq_unsupportedType {fault : BindFault}
    (h : (ExecutionFault.call (.invalid (.values fault))).category = .unsupportedType) :
    ∃ index cause, fault = .encode index (.registry cause) := by
  cases fault with
  | wrongCount | row => cases h
  | encode index fault =>
    cases fault with
    | registry cause => exact ⟨index, cause, rfl⟩
    | cell fault => cases fault <;> cases h
    | _ => cases h

/-- Bound values are unsupported only if a custom class is in one of their types. -/
theorem blames_of_ofTyped {values : List (Bound Value × Option CqlType)} {fault : BindFault}
    (h : BoundRow.ofTyped .standard values = .error fault)
    (hunsupported : (ExecutionFault.call (.invalid (.values fault))).category = .unsupportedType) :
    ∃ value ∈ values, ∃ type ∈ value.2, ∃ className, CqlType.Occurs (.custom className) type := by
  obtain ⟨index, cause, rfl⟩ := category_eq_unsupportedType hunsupported
  have hwritten : BoundRow.writeAll .standard .new 0 values =
      .error (.encode index (.registry cause)) := by
    rw [BoundRow.ofTyped] at h
    cases hall : BoundRow.writeAll .standard .new 0 values with
    | error fault =>
      rw [hall] at h
      cases h
      rfl
    | ok row =>
      rw [hall] at h
      change row.finalize.mapError BindFault.row = _ at h
      cases hfinished : row.finalize <;> rw [hfinished] at h <;> cases h
  obtain ⟨⟨bound, type⟩, hmember, v, -, hrefused⟩ := refused_of_writeAll hwritten
  cases type with
  | none => exact (encode_untyped_ne_registry v _ hrefused cause rfl).elim
  | some type =>
    obtain ⟨className, hoccurs, -⟩ := blames_of_encode type v _ hrefused cause rfl
    exact ⟨_, hmember, type, rfl, className, hoccurs⟩

/-- The registry is told apart as the reason of a row that is not taken only by a custom class in
the type of a column. -/
theorem blames_of_take {page left : Page} {fault : ExecutionFault}
    (h : page.take .standard = some (.error fault, left))
    (hunsupported : fault.category = .unsupportedType) :
    ∃ column ∈ page.columns, ∃ className, CqlType.Occurs (.custom className) column.type := by
  rw [Page.take] at h
  split at h
  · cases h
  · split at h
    · next refusal rest hread =>
      cases h
      obtain ⟨index, name, type, cause⟩ := refusal
      cases cause with
      | registry cause =>
        obtain ⟨⟨column, hmember, heq⟩, className, hoccurs, -⟩ := Row.blames_of_read hread rfl
        exact ⟨column, hmember, className, heq ▸ hoccurs⟩
      | _ => cases hunsupported
    · dsimp only at h
      split at h
      · cases h
        cases hunsupported
      · cases h

/-- With the standard registry only custom classes are unsupported. A fault of the registry names
one that the type at hand is built from, and without a described type there is none; so that whoever
is told that a row or bound values are of an unsupported type has a custom class in the types of the
columns or of the values. -/
theorem registry_faults :
    (∀ type bytes cause,
      Registry.standard.decode type bytes = .error (.registry cause) → cause.Blames type) ∧
    (∀ v type cause,
      Registry.standard.encode v (some type) = .error (.registry cause) → cause.Blames type) ∧
    (∀ v cause, Registry.standard.encode v none ≠ .error (.registry cause)) ∧
    (∀ (page left : Page) fault, page.take .standard = some (.error fault, left) →
      fault.category = .unsupportedType →
      ∃ column ∈ page.columns, ∃ className, CqlType.Occurs (.custom className) column.type) ∧
    (∀ values types fault, BoundRow.bind .standard values types = .error fault →
      (ExecutionFault.call (.invalid (.values fault))).category = .unsupportedType →
      ∃ type ∈ types, ∃ className, CqlType.Occurs (.custom className) type) ∧
    (∀ values fault, BoundRow.ofValues .standard values = .error fault →
      (ExecutionFault.call (.invalid (.values fault))).category ≠ .unsupportedType) := by
  refine ⟨fun type bytes cause h => ?_, fun v type cause h => ?_, fun v cause h => ?_,
    fun page left fault h hunsupported => ?_, fun values types fault h hunsupported => ?_,
    fun values fault h hunsupported => ?_⟩
  · exact blames_of_decode type bytes _ h cause rfl
  · exact blames_of_encode type v _ h cause rfl
  · exact encode_untyped_ne_registry v _ h cause rfl
  · exact blames_of_take h hunsupported
  · rw [BoundRow.bind] at h
    split at h
    · obtain ⟨value, hmember, type, heq, className, hoccurs⟩ := blames_of_ofTyped h hunsupported
      obtain ⟨type', hmember', hsame⟩ := List.mem_map.mp (List.of_mem_zip hmember).2
      obtain rfl : type' = type := Option.some.inj (hsame.trans heq)
      exact ⟨type', hmember', className, hoccurs⟩
    · cases h
      cases hunsupported
  · obtain ⟨value, hmember, type, heq, -⟩ := blames_of_ofTyped h hunsupported
    obtain ⟨bound, -, rfl⟩ := List.mem_map.mp hmember
    cases heq

theorem registry_faults_geometry :
    let geometry := CqlType.custom "Geometry"
    let refusal := RegistryFault.unsupportedType geometry.text
    let column : Column := ⟨"ks", "t", "shape", 0, .list geometry⟩
    refusal.Blames (.list geometry) ∧
    refusal.Blames (.tuple [geometry]) ∧
    (∃ found ∈ [column], ∃ className, CqlType.Occurs (.custom className) found.type) ∧
    (∃ type ∈ [geometry], ∃ className, CqlType.Occurs (.custom className) type) ∧
    (ExecutionFault.call (.invalid (.values (.encode 0 (.typeMismatch (.native .time) "time"))))
      ).category ≠ .unsupportedType :=
  ⟨registry_faults.1 (.list (.custom "Geometry")) [0, 0, 0, 1, 0, 0, 0, 1, 7] _ rfl,
    registry_faults.2.1 (.tuple [some (.int 7)]) (.tuple [.custom "Geometry"]) _ rfl,
    registry_faults.2.2.2.1 ⟨[0, 0, 0, 9, 0, 0, 0, 1, 0, 0, 0, 1, 7], 1, [_]⟩ _ _ rfl rfl,
    registry_faults.2.2.2.2.1 [.value (.int 7)] _ _ rfl rfl,
    registry_faults.2.2.2.2.2 [.value (.time (-1))] _ rfl⟩

end CqlClient
