import CqlClient.Proofs.Codec.Layout

/-!
# What of a registry a type or a value depends on

Whatever codec serves a code, and be it one that writes as is right for a second code and reads as
is right for a third, it goes back to the registry for parts of the type and of the value at hand
only. So nothing but the codecs of their codes counts:

* `Registry.AgreesOn`, `Registry.AgreesWithin`: two registries have the same codecs for the codes in
  a type, or in a value;
* `decode_congr`, `encode_congr`: they read and write alike then;
* `locality`: and a codec that is put in place of another one changes nothing for types and values
  that its code does not occur in.
-/

namespace CqlClient

open Codec

variable {r r' : Registry}

namespace Registry

/-- The registries have the same codecs for all types that the type is built from. -/
def AgreesOn (r r' : Registry) (type : CqlType) : Prop :=
  ∀ part, CqlType.Occurs part type → r.codec? part.code = r'.codec? part.code

/-- The registries have the same codecs for what the values in a value are by themselves. -/
def AgreesWithin (r r' : Registry) (v : Value) : Prop :=
  ∀ part, Value.Occurs part v → r.codec? part.code = r'.codec? part.code

theorem AgreesOn.child {type child : CqlType} (h : r.AgreesOn r' type)
    (hmember : child ∈ type.children) : r.AgreesOn r' child :=
  fun part hoccurs => h part (.inside hmember hoccurs)

theorem AgreesWithin.part {v part : Value} (h : r.AgreesWithin r' v) (hmember : part ∈ v.parts) :
    r.AgreesWithin r' part :=
  fun deep hoccurs => h deep (.inside hmember hoccurs)

theorem agreesOn_native {v : Value} {native : Native} (h : r.AgreesWithin r' v)
    (hcode : v.code = .native native) : r.AgreesOn r' (.native native) := by
  intro part hoccurs
  cases hoccurs with
  | here =>
    have hsame := h v .here
    rwa [hcode] at hsame
  | inside hmember => cases hmember

theorem codecFor_congr {code : TypeCode} (h : r.codec? code = r'.codec? code)
    (type : Option CqlType) : r.codecFor code type = r'.codecFor code type := by
  simp only [codecFor, h]

end Registry

/-! ## Reading -/

/-- A coding reads alike with registries that read alike what the type is built from. -/
theorem decodeWith_congr {type : CqlType}
    (h : ∀ child ∈ type.children, r.decode child = r'.decode child) (coding : Coding)
    (bytes : Bytes) : decodeWith r type coding bytes = decodeWith r' type coding bytes := by
  cases coding with
  | native scalar => cases type <;> rfl
  | list =>
    cases type with
    | list element | set element | vector element _ =>
      have hpart := h element (List.mem_singleton_self element)
      exact congrArg (fun decode => Value.list <$> (elements decode).outcome bytes) hpart
    | _ => rfl
  | set =>
    cases type with
    | list element | set element | vector element _ =>
      have hpart := h element (List.mem_singleton_self element)
      exact congrArg (fun decode => Value.set <$> (elements decode).outcome bytes) hpart
    | _ => rfl
  | map =>
    cases type with
    | map key value =>
      have hkeys := h key (by simp [CqlType.children])
      have hvalues := h value (by simp [CqlType.children])
      exact congrArg₂ (fun key value => Value.map <$> (entries key value).outcome bytes)
        hkeys hvalues
    | _ => rfl
  | tuple =>
    cases type with
    | tuple types =>
      have hfields : decodeTuple r types [] = decodeTuple r' types [] := by
        rw [decodeTuple_eq, decodeTuple_eq, mapM_congr fun type hmember => by rw [h type hmember]]
      rw [decodeWith, decodeWith, hfields]
    | _ => rfl
  | udt =>
    cases type with
    | udt keyspace name types =>
      have hfields : decodeFields r types [] = decodeFields r' types [] := by
        rw [decodeFields_eq, decodeFields_eq, mapM_congr fun field hmember => by
          rw [h field.2 (List.mem_map_of_mem hmember)]]
      rw [decodeWith, decodeWith, hfields]
    | _ => rfl
  | vector =>
    cases type with
    | vector element dimensions =>
      have hpart := h element (List.mem_singleton_self element)
      exact congrArg (fun decode => element.fixedSize.mapError DecodeFault.panic >>= fun size =>
        Value.vector <$> (components dimensions.toNat size decode).outcome bytes) hpart
    | _ => rfl

theorem decode_congr {type : CqlType} (hagree : r.AgreesOn r' type) :
    r.decode type = r'.decode type := by
  induction type using CqlType.inductionOnChildren with
  | step type ih =>
    have hparts := decodeWith_congr fun child hmember => ih child hmember (hagree.child hmember)
    have hdecoder : r.decoder type.code (some type) = r'.decoder type.code (some type) := by
      rw [Registry.decoder, Registry.decoder, Registry.codecFor_congr (hagree type .here)]
    funext bytes
    rw [Registry.decode, Registry.decode, Registry.dispatch, Registry.dispatch, hdecoder]
    cases r'.decoder type.code (some type) with
    | error fault => rfl
    | ok coding => exact hparts coding bytes

/-! ## Writing -/

theorem encode_congr {type : Option CqlType} {v : Value}
    (htypes : ∀ whole ∈ type, r.AgreesOn r' whole) (hvalues : r.AgreesWithin r' v) :
    r.encode v type = r'.encode v type := by
  induction v using Value.inductionOn generalizing type with
  | step v ih =>
    have hsame : r.codec? ((type.map (·.code)).getD v.code) =
        r'.codec? ((type.map (·.code)).getD v.code) := by
      cases type with
      | none => exact hvalues v .here
      | some whole => exact htypes whole rfl whole .here
    rw [Registry.encode, Registry.encode, Registry.encoder, Registry.encoder,
      Registry.codecFor_congr hsame]
    cases r'.codecFor ((type.map (·.code)).getD v.code) type with
    | error fault => rfl
    | ok codec =>
      show encodeWith r v codec.encoder type = encodeWith r' v codec.encoder type
      rw [encodeWith_eq_layout, encodeWith_eq_layout]
      cases hlaid : codec.encoder.layout type v with
      | error fault => rfl
      | ok layout =>
        show r.writeLayout layout = r'.writeLayout layout
        rw [Registry.writeLayout, Registry.writeLayout, mapM_congr fun portion hmember => ?_]
        have hportion := handed_of_layout hlaid portion hmember
        cases hfield : portion.field with
        | none => rw [Registry.writePortion, Registry.writePortion, hfield]
        | some part =>
          have hmember := hportion.part part hfield
          have hchild : ∀ whole ∈ portion.type, r.AgreesOn r' whole := by
            have hhands := hportion.type
            generalize portion.type = described at hhands ⊢
            cases hhands with
            | described heq hmember => simpa using (htypes _ heq).child hmember
            | carried hmember hcode _ =>
              simpa using Registry.agreesOn_native (hvalues.part hmember) hcode
            | nothing => simp
          have hwritten := ih part hmember hchild (hvalues.part hmember)
          simp only [Registry.writePortion, hfield, Registry.encodeFramed, hwritten]

/-- Reading bytes by a type and writing a value, by a type or without any, depend on the codecs of
the codes in that type and in that value alone, whatever codecs these are. A codec that is put in
place for a code that does not occur there changes nothing. -/
theorem locality (r r' : Registry) (type : CqlType) (v : Value) :
    (r.AgreesOn r' type → ∀ bytes, r.decode type bytes = r'.decode type bytes) ∧
    (r.AgreesOn r' type → r.AgreesWithin r' v →
      r.encode v (some type) = r'.encode v (some type)) ∧
    (r.AgreesWithin r' v → r.encode v none = r'.encode v none) ∧
    ∀ code codec, (∀ part, CqlType.Occurs part type → part.code ≠ code) →
      (∀ bytes, (r.register code codec).decode type bytes = r.decode type bytes) ∧
      ((∀ part, Value.Occurs part v → part.code ≠ code) →
        (r.register code codec).encode v (some type) = r.encode v (some type) ∧
        (r.register code codec).encode v none = r.encode v none) := by
  have htyped {s s' : Registry} (hagree : s.AgreesOn s' type) (hwithin : s.AgreesWithin s' v) :
      s.encode v (some type) = s'.encode v (some type) :=
    encode_congr (by simpa using hagree) hwithin
  have huntyped {s s' : Registry} (hwithin : s.AgreesWithin s' v) :
      s.encode v none = s'.encode v none :=
    encode_congr (by simp) hwithin
  refine ⟨fun hagree bytes => congrFun (decode_congr hagree) bytes, htyped, huntyped,
    fun code codec habsent => ?_⟩
  have hagree : (r.register code codec).AgreesOn r type :=
    fun part hoccurs => r.register_codec?_of_ne codec (habsent part hoccurs)
  refine ⟨fun bytes => congrFun (decode_congr hagree) bytes, fun habsentValue => ?_⟩
  have hwithin : (r.register code codec).AgreesWithin r v :=
    fun part hoccurs => r.register_codec?_of_ne codec (habsentValue part hoccurs)
  exact ⟨htyped hagree hwithin, huntyped hwithin⟩

/-- Sets are read as lists, numbers as days; lists are served by what is made for other codes. -/
theorem locality_setOfInt :
    let type := CqlType.set (.native .int)
    let v := Value.set [.int 7]
    let mixed (r : Registry) := (r.register .set ⟨.set, .list⟩).register (.native .int)
      ⟨.native .int, .native .date⟩
    let small := mixed .empty
    let large := mixed .standard
    let crossed := large.register .list ⟨.map, .vector⟩
    (large.decode type [0, 0, 0, 1, 0, 0, 0, 4, 0, 0, 0, 7] = .ok (.list [.date 7]) ∧
      large.encode v (some type) = .ok [0, 0, 0, 1, 0, 0, 0, 4, 0, 0, 0, 7]) ∧
    (∀ bytes, small.decode type bytes = large.decode type bytes) ∧
    small.encode v (some type) = large.encode v (some type) ∧
    small.encode v none = large.encode v none ∧
    (∀ bytes, crossed.decode type bytes = large.decode type bytes) ∧
    crossed.encode v (some type) = large.encode v (some type) ∧
    crossed.encode v none = large.encode v none := by
  intro type v mixed small large crossed
  have htypeParts {part : CqlType} (hoccurs : part.Occurs type) :
      part = type ∨ part = .native .int := by
    cases hoccurs with
    | here => exact .inl rfl
    | inside hmember hdeeper =>
      cases List.mem_singleton.mp hmember
      cases hdeeper with
      | here => exact .inr rfl
      | inside hmember => cases hmember
  have hvalueParts {part : Value} (hoccurs : part.Occurs v) : part = v ∨ part = .int 7 := by
    cases hoccurs with
    | here => exact .inl rfl
    | inside hmember hdeeper =>
      cases List.mem_singleton.mp hmember
      cases hdeeper with
      | here => exact .inr rfl
      | inside hmember => cases hmember
  have hagree : small.AgreesOn large type := by
    intro part hoccurs
    rcases htypeParts hoccurs with rfl | rfl <;> rfl
  have hwithin : small.AgreesWithin large v := by
    intro part hoccurs
    rcases hvalueParts hoccurs with rfl | rfl <;> rfl
  have habsent (part : CqlType) (hoccurs : part.Occurs type) : part.code ≠ .list := by
    rcases htypeParts hoccurs with rfl | rfl <;> decide
  have habsentValue (part : Value) (hoccurs : part.Occurs v) : part.code ≠ .list := by
    rcases hvalueParts hoccurs with rfl | rfl <;> decide
  have hsame := locality small large type v
  have hkept := (locality large large type v).2.2.2 .list ⟨.map, .vector⟩ habsent
  exact ⟨⟨rfl, rfl⟩, hsame.1 hagree, hsame.2.1 hagree hwithin, hsame.2.2.1 hwithin, hkept.1,
    hkept.2 habsentValue⟩

end CqlClient
