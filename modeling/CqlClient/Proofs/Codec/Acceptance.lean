import CqlClient.Proofs.Codec.Stable
import CqlClient.Proofs.Vint
import Mathlib.Algebra.Ring.Nat

/-!
# What the standard codecs accept

A value is accepted for a type if it inhabits the type, if every length and every count in front of
its parts can be written, and if a word holds the size of the elements of every vector that the
encoder comes to. None of these asks the encoder: sizes are counted, not measured.

* `length_eq_size`: what is written has the size that is counted;
* `Scalar.inhabits_of_encode`, `Scalar.encode_of_inhabits`: the values of native types;
* `CqlType.inhabits_iff`, `CqlType.encodes_iff_of_suits`: what a type asks of a value, and what it
  leaves to the parts;
* `CqlType.onlyOverflows_of_inhabits`: all that is left to go wrong is the size of elements;
* `encodes_iff_inhabits_and_fits`: all types, by induction on them.
-/

namespace CqlClient

open Codec

/-! ## Values of types -/

/-- The native type that stands for all those whose values are written in one form. -/
def Native.form : Native → Native
  | ascii => text
  | counter => bigint
  | timeuuid => uuid
  | type => type

/-- The value is written in the form of the type. A string has ASCII characters only if the type
asks for them, and a time is one of a day. -/
structure Native.Inhabits (type : Native) (v : Value) : Prop where
  form : ∃ own : Native, v.code = .native own ∧ own.form = type.form
  ascii : type = .ascii → ∀ text, v.text? = some text → ∀ c ∈ text.toList, c.toNat < 128
  time : ∀ n, v = .time n → 0 ≤ n ∧ n < nanosecondsPerDay

/-- The values of a type. A list serves as a set or as a vector, and a set as a list; no value
belongs to a custom type. -/
inductive CqlType.Inhabits : CqlType → Value → Prop
  | native {type : Native} {v : Value} (inhabits : type.Inhabits v) : Inhabits (.native type) v
  | list {element : CqlType} {v : Value} {vs : List Value} (kind : v = .list vs ∨ v = .set vs)
    (each : ∀ w ∈ vs, Inhabits element w) : Inhabits (.list element) v
  | set {element : CqlType} {v : Value} {vs : List Value} (kind : v = .list vs ∨ v = .set vs)
    (each : ∀ w ∈ vs, Inhabits element w) : Inhabits (.set element) v
  | map {key value : CqlType} {entries : List (Value × Value)}
    (keys : ∀ entry ∈ entries, Inhabits key entry.1)
    (values : ∀ entry ∈ entries, Inhabits value entry.2) :
    Inhabits (.map key value) (.map entries)
  /-- There are as many fields as types, and any of them may be null. -/
  | tuple {types : List CqlType} {fields : List (Option Value)}
    (width : types.length = fields.length)
    (each : ∀ field ∈ types.zip fields, ∀ v, field.2 = some v → Inhabits field.1 v) :
    Inhabits (.tuple types) (.tuple fields)
  /-- Every field is declared. Of those of one name the first counts; it may be null or absent. -/
  | udt {keyspace name owner other : String} {types : List (String × CqlType)}
    {fields : List (String × Option Value)}
    (declared : ∀ field ∈ fields, field.1 ∈ types.map Prod.fst)
    (each : ∀ field ∈ types, ∀ v, fields.lookup field.1 = some (some v) → Inhabits field.2 v) :
    Inhabits (.udt keyspace name types) (.udt owner other fields)
  | vector {element : CqlType} {dimensions : UInt16} {v : Value} {vs : List Value}
    (kind : v = .list vs ∨ v = .vector vs) (length : vs.length = dimensions.toNat)
    (each : ∀ w ∈ vs, Inhabits element w) : Inhabits (.vector element dimensions) v

/-! ## Sizes -/

/-- The bytes of a native value. -/
def Value.scalarSize : Value → Nat
  | .boolean _ | .tinyint _ => 1
  | .smallint _ => 2
  | .int _ | .float _ | .date _ => 4
  | .bigint _ | .counter _ | .double _ | .time _ | .timestamp _ => 8
  | .uuid _ | .timeuuid _ => 16
  | .ascii s | .text s => s.utf8ByteSize
  | .blob bytes => bytes.length
  | .inet (.v4 _) => 4
  | .inet (.v6 _) => 16
  | .varint n => n.bytes.length
  | .decimal d => 4 + d.unscaled.bytes.length
  | .duration d => [d.months.toInt64, d.days.toInt64, d.nanoseconds].map
      (fun n => Vint.size (Vint.zigzag n).toNat) |>.sum
  | _ => 0

mutual

/-- The bytes of a value of a type, with all that stands in front of its parts. -/
def CqlType.size : CqlType → Value → Nat
  | .native _, v => v.scalarSize
  | .list element, .list vs | .list element, .set vs
  | .set element, .list vs | .set element, .set vs => 4 + (vs.map fun v => 4 + element.size v).sum
  | .map key value, .map entries =>
    4 + (entries.map fun entry => 4 + key.size entry.1 + (4 + value.size entry.2)).sum
  | .tuple types, .tuple fields => sizeOfTuple types fields
  | .udt _ _ types, .udt _ _ fields => sizeOfFields types fields
  | .vector element _, .list vs | .vector element _, .vector vs =>
    (vs.map fun v => (if element.exactSize.isSome then 0 else Vint.size (element.size v)) +
      element.size v).sum
  | _, _ => 0

def CqlType.sizeOfTuple : List CqlType → List (Option Value) → Nat
  | type :: types, field :: fields => 4 + (field.map type.size).getD 0 + sizeOfTuple types fields
  | _, _ => 0

def CqlType.sizeOfFields : List (String × CqlType) → List (String × Option Value) → Nat
  | [], _ => 0
  | (name, type) :: types, fields =>
    4 + ((fields.lookup name).join.map type.size).getD 0 + sizeOfFields types fields

end

namespace CqlType

/-- The number that stands in front of the parts of a value, if there is one. -/
def count : CqlType → Value → Nat
  | .list _, .list vs | .list _, .set vs | .set _, .list vs | .set _, .set vs => vs.length
  | .map .., .map entries => entries.length
  | _, _ => 0

/-- The parts of a value, each with the type that it is written by. -/
def parts : CqlType → Value → List (CqlType × Value)
  | .list element, .list vs | .list element, .set vs
  | .set element, .list vs | .set element, .set vs
  | .vector element _, .list vs | .vector element _, .vector vs => vs.map (element, ·)
  | .map key value, .map entries => entries.flatMap fun entry => [(key, entry.1), (value, entry.2)]
  | .tuple types, .tuple fields =>
    (types.zip fields).filterMap fun field => field.2.map (field.1, ·)
  | .udt _ _ types, .udt _ _ fields =>
    types.filterMap fun field => (fields.lookup field.1).join.map (field.2, ·)
  | _, _ => []

/-- Parts of that many bytes fit behind the length in front of them: four bytes that count as
signed, but in a vector nothing at all or a number of up to 64 bits, which any length in memory
is. -/
def FitsLength : CqlType → Nat → Prop
  | .vector element _, size => element.exactSize = none → size < UInt64.size
  | _, size => size ≤ Wire.maxInt32

/-- What stands in front of parts can be written, at any depth. -/
inductive Fits : CqlType → Value → Prop
  | of_parts {type : CqlType} {v : Value} (count : type.count v ≤ Wire.maxInt32)
    (lengths : ∀ part ∈ type.parts v, type.FitsLength (part.1.size part.2))
    (deeper : ∀ part ∈ type.parts v, Fits part.1 part.2) : Fits type v

theorem fits_iff {type : CqlType} {v : Value} :
    type.Fits v ↔ type.count v ≤ Wire.maxInt32 ∧ ∀ part ∈ type.parts v,
      type.FitsLength (part.1.size part.2) ∧ part.1.Fits part.2 := by
  refine ⟨?_, fun h => .of_parts h.1 (fun part hpart => (h.2 part hpart).1) fun part hpart =>
    (h.2 part hpart).2⟩
  rintro ⟨hcount, hlengths, hdeeper⟩
  exact ⟨hcount, fun part hpart => ⟨hlengths part hpart, hdeeper part hpart⟩⟩

/-- The size of the elements can be counted, if that is what a vector asks for first. -/
def ElementSizeFits : CqlType → Prop
  | .vector element _ => element.SizeFits
  | _ => True

/-- Wherever a vector is written, at any depth, the size of its elements can be counted. -/
inductive SizesFit : CqlType → Value → Prop
  | of_parts {type : CqlType} {v : Value} (own : type.ElementSizeFits)
    (deeper : ∀ part ∈ type.parts v, SizesFit part.1 part.2) : SizesFit type v

theorem sizesFit_iff {type : CqlType} {v : Value} :
    type.SizesFit v ↔ type.ElementSizeFits ∧ ∀ part ∈ type.parts v, part.1.SizesFit part.2 :=
  ⟨fun ⟨hown, hdeeper⟩ => ⟨hown, hdeeper⟩, fun h => .of_parts h.1 h.2⟩

end CqlType

/-! ## Native values -/

namespace Scalar

theorem isAscii_iff {s : String} : isAscii s = true ↔ ∀ c ∈ s.toList, c.toNat < 128 := by
  simp [isAscii]

theorem isTimeOfDay_iff {n : Int64} : isTimeOfDay n = true ↔ 0 ≤ n ∧ n < nanosecondsPerDay := by
  simp [isTimeOfDay]

theorem length_of_scalar {type : Native} {v : Value} {bytes : Bytes}
    (h : Scalar.encode type v = .ok bytes) : bytes.length = v.scalarSize := by
  cases type with
  | boolean | blob | varint =>
    cases v <;> cases h
    rfl
  | tinyint | smallint | int | bigint | counter | float | double | date | timestamp =>
    cases v <;> cases h <;> exact Bytes.length_ofNat _ _
  | uuid | timeuuid =>
    cases v <;> cases h <;> rename_i id <;> exact id.2
  | text =>
    cases v <;> cases h <;> rfl
  | ascii =>
    cases v <;> try cases h
    all_goals
      simp only [encode] at h
      split at h <;> cases h
      rfl
  | time =>
    cases v <;> try cases h
    simp only [encode] at h
    split at h <;> cases h
    exact Bytes.length_ofNat _ _
  | inet =>
    cases v <;> cases h
    rename_i address
    cases address <;> rename_i octets <;> exact octets.2
  | decimal =>
    cases v <;> cases h
    rw [List.length_append]
    exact congrArg (· + _) (Bytes.length_ofNat 4 _)
  | duration =>
    cases v <;> cases h
    simp only [List.length_append, Vint.write, Vint.length_writeUnsigned, Value.scalarSize,
      List.map_cons, List.map_nil, List.sum_cons, List.sum_nil, Nat.add_zero, Nat.add_assoc]

theorem inhabits_of_encode {type : Native} {v : Value} {bytes : Bytes}
    (h : Scalar.encode type v = .ok bytes) : type.Inhabits v := by
  refine ⟨?form, ?ascii, ?time⟩
  case form =>
    cases type <;> cases v <;> first
      | exact ⟨_, rfl, rfl⟩
      | cases h
  case ascii =>
    rintro rfl text htext
    cases v <;> cases htext
    all_goals
      simp only [encode] at h
      split at h
      · exact isAscii_iff.mp ‹_›
      · cases h
  case time =>
    rintro n rfl
    cases type <;> try cases h
    simp only [encode] at h
    split at h
    · exact isTimeOfDay_iff.mp ‹_›
    · cases h

/-- Of all pairs of a type and a value of its form, only strings and times can be refused. -/
theorem encode_of_inhabits {type : Native} {v : Value} (h : type.Inhabits v) :
    ∃ bytes, Scalar.encode type v = .ok bytes := by
  obtain ⟨⟨own, hcode, hform⟩, hascii, htime⟩ := h
  cases type <;> cases v <;> cases hcode <;> first
    | exact ⟨_, rfl⟩
    | cases hform
  case ascii.ascii.refl.refl s => exact ⟨_, if_pos (isAscii_iff.mpr (hascii rfl s rfl))⟩
  case ascii.text.refl.refl s => exact ⟨_, if_pos (isAscii_iff.mpr (hascii rfl s rfl))⟩
  case time.time.refl.refl n => exact ⟨_, if_pos (isTimeOfDay_iff.mpr (htime n rfl))⟩

end Scalar

/-! ## Sizes of what is written -/

theorem sizeOfTuple_eq (types : List CqlType) (fields : List (Option Value)) :
    CqlType.sizeOfTuple types fields = ((types.zip fields).map fun field =>
      4 + (field.2.map field.1.size).getD 0).sum := by
  induction types generalizing fields with
  | nil => rfl
  | cons type types ih =>
    cases fields with
    | nil => rfl
    | cons field fields =>
      rw [CqlType.sizeOfTuple, ih, List.zip_cons_cons, List.map_cons, List.sum_cons]

theorem sizeOfFields_eq (types : List (String × CqlType)) (fields : List (String × Option Value)) :
    CqlType.sizeOfFields types fields = (types.map fun field =>
      4 + ((fields.lookup field.1).join.map field.2.size).getD 0).sum := by
  induction types with
  | nil => rfl
  | cons field types ih =>
    obtain ⟨name, type⟩ := field
    rw [CqlType.sizeOfFields, ih, List.map_cons, List.sum_cons]

/-- Parts in a row are as long as all of them together. -/
theorem length_of_mapM {α : Type} {write : α → Except EncodeFault Bytes} {size : α → Nat}
    {as : List α} {parts : List Bytes} (h : as.mapM write = .ok parts)
    (heach : ∀ a ∈ as, ∀ part, write a = .ok part → part.length = size a) :
    parts.flatten.length = (as.map size).sum := by
  induction as generalizing parts with
  | nil =>
    obtain rfl := mapM_nil_eq_ok.mp h
    rfl
  | cons a as ih =>
    obtain ⟨part, others, hpart, hothers, rfl⟩ := mapM_cons_eq_ok.mp h
    obtain ⟨hfirst, hrest⟩ := List.forall_mem_cons.mp heach
    rw [List.flatten_cons, List.length_append, hfirst part hpart, ih hothers hrest, List.map_cons,
      List.sum_cons]

/-- Elements of a fixed size stand alone in vectors, and the others behind their length. -/
theorem vectorFraming_eq_ok {type : CqlType} {v : Value} {bytes part : Bytes}
    (h : Registry.standard.encode v (some type) = .ok bytes) :
    vectorFraming type.exactSize v bytes = .ok part ↔
      (type.exactSize = none → bytes.length < UInt64.size) ∧
        (if type.exactSize.isSome then bytes
          else Vint.writeUnsigned (UInt64.ofNat bytes.length) ++ bytes) = part := by
  cases hsize : type.exactSize with
  | none =>
    by_cases hlen : bytes.length < UInt64.size <;> simp [vectorFraming, Framing.vintSized, hlen]
  | some size => simp [vectorFraming, Framing.bare, length_of_encode hsize h]

/-- A type whose encodings have the size that is counted. -/
def HasSize (type : CqlType) : Prop :=
  ∀ (v : Value) (bytes : Bytes), Registry.standard.encode v (some type) = .ok bytes →
    bytes.length = type.size v

namespace HasSize

variable {type : CqlType}

theorem element (h : HasSize type) {v : Value} {part : Bytes}
    (hw : Registry.standard.encodeFramed .sized (some type) v = .ok part) :
    part.length = 4 + type.size v := by
  obtain ⟨bytes, hbytes, hpart⟩ := encodeFramed_eq_ok.mp hw
  obtain ⟨-, rfl⟩ := sized_eq_ok.mp hpart
  rw [Wire.writeBytes, List.length_append, Bytes.length_ofNat, h v bytes hbytes]

theorem field (h : HasSize type) {v : Option Value} {part : Bytes}
    (hw : Registry.standard.encodeSized v (some type) = .ok part) :
    part.length = 4 + (v.map type.size).getD 0 := by
  cases v with
  | none =>
    cases hw
    exact Bytes.length_ofNat 4 _
  | some v => exact h.element hw

theorem component (h : HasSize type) {v : Value} {part : Bytes}
    (hw : Registry.standard.encodeFramed (vectorFraming type.exactSize) (some type) v = .ok part) :
    part.length =
      (if type.exactSize.isSome then 0 else Vint.size (type.size v)) + type.size v := by
  obtain ⟨bytes, hbytes, hpart⟩ := encodeFramed_eq_ok.mp hw
  obtain ⟨hlen, rfl⟩ := (vectorFraming_eq_ok hbytes).mp hpart
  rw [← h v bytes hbytes]
  cases hsize : type.exactSize with
  | none =>
    rw [Option.isSome_none, if_neg Bool.false_ne_true, if_neg Bool.false_ne_true,
      List.length_append, Vint.length_writeUnsigned, UInt64.toNat_ofNat_of_lt' (hlen hsize)]
  | some size =>
    rw [Option.isSome_some, if_pos rfl, if_pos rfl, Nat.zero_add]

theorem counted (h : HasSize type) {vs : List Value} {bytes : Bytes}
    (hw : Registry.standard.encodeCounted type vs = .ok bytes) :
    bytes.length = 4 + (vs.map fun v => 4 + type.size v).sum := by
  obtain ⟨front, hfront, hw⟩ := bind_eq_ok.mp hw
  obtain ⟨-, rfl⟩ := count_eq_ok.mp hfront
  obtain ⟨parts, hparts, hw⟩ := bind_eq_ok.mp hw
  cases hw
  rw [List.length_append, Bytes.length_ofNat, length_of_mapM hparts fun v _ part => h.element]

end HasSize

/-! ## What containers write -/

section Containers

variable {type element key value : CqlType} {v : Value} {vs : List Value} {bytes : Bytes}

/-- Lists and sets are written alike, of whatever kind the value is. -/
theorem encode_listed (hlisted : type = .list element ∨ type = .set element)
    (hkind : v = .list vs ∨ v = .set vs) :
    Registry.standard.encode v (some type) = Registry.standard.encodeCounted element vs := by
  rcases hlisted with rfl | rfl <;> rcases hkind with rfl | rfl <;>
    exact encodeCounted_eq .standard vs

theorem listed_of_encode (hlisted : type = .list element ∨ type = .set element)
    (h : Registry.standard.encode v (some type) = .ok bytes) :
    ∃ vs, v = .list vs ∨ v = .set vs := by
  rcases hlisted with rfl | rfl <;> cases v <;> try cases h
  all_goals first
    | exact ⟨_, .inl rfl⟩
    | exact ⟨_, .inr rfl⟩

theorem mapped_of_encode (h : Registry.standard.encode v (some (.map key value)) = .ok bytes) :
    ∃ entries, v = .map entries := by
  cases v <;> try cases h
  exact ⟨_, rfl⟩

theorem tuple_of_encode {types : List CqlType}
    (h : Registry.standard.encode v (some (.tuple types)) = .ok bytes) :
    ∃ fields, v = .tuple fields ∧ types.length = fields.length := by
  cases v <;> try cases h
  rename_i fields
  obtain ⟨_, hwidth, -⟩ := bind_eq_ok.mp h
  refine ⟨fields, rfl, ?_⟩
  by_cases hlen : types.length = fields.length
  · exact hlen
  · rw [checkTupleWidth, if_neg hlen] at hwidth
    cases hwidth

theorem undeclared?_eq_none_iff {types : List (String × CqlType)}
    {fields : List (String × Option Value)} :
    undeclared? types fields = none ↔ ∀ field ∈ fields, field.1 ∈ types.map Prod.fst := by
  rw [undeclared?, Option.map_eq_none_iff, List.find?_eq_none]
  simp

theorem udt_of_encode {keyspace name : String} {types : List (String × CqlType)}
    (h : Registry.standard.encode v (some (.udt keyspace name types)) = .ok bytes) :
    ∃ owner other fields, v = .udt owner other fields ∧ undeclared? types fields = none := by
  cases v <;> try cases h
  rename_i owner other fields
  refine ⟨owner, other, fields, rfl, ?_⟩
  rw [encode_udt] at h
  cases hdeclared : undeclared? types fields with
  | none => rfl
  | some field =>
    rw [hdeclared] at h
    cases h

theorem encode_declared {keyspace name owner other : String} {types : List (String × CqlType)}
    {fields : List (String × Option Value)} (h : undeclared? types fields = none) :
    Registry.standard.encode (.udt owner other fields) (some (.udt keyspace name types)) =
      List.flatten <$> types.mapM fun field =>
        Registry.standard.encodeSized (fields.lookup field.1).join (some field.2) := by
  rw [encode_udt, h, Option.elim_none, writeDeclared_eq]

theorem encode_vectored {dimensions : UInt16} (hkind : v = .list vs ∨ v = .vector vs)
    (hlength : vs.length = dimensions.toNat) :
    Registry.standard.encode v (some (.vector element dimensions)) =
      element.fixedSize.mapError .panic >>= fun size => List.flatten <$> vs.mapM
        (Registry.standard.encodeFramed (vectorFraming size) (some element)) := by
  rcases hkind with rfl | rfl <;> exact encode_vector hlength

theorem encode_vectored_eq_ok {dimensions : UInt16} (hkind : v = .list vs ∨ v = .vector vs)
    (hlength : vs.length = dimensions.toNat) :
    Registry.standard.encode v (some (.vector element dimensions)) = .ok bytes ↔
      element.SizeFits ∧ List.flatten <$> vs.mapM (Registry.standard.encodeFramed
        (vectorFraming element.exactSize) (some element)) = .ok bytes := by
  rw [encode_vectored hkind hlength, bind_eq_ok]
  constructor
  · rintro ⟨size, hsize, h⟩
    obtain ⟨hfits, rfl⟩ := CqlType.fixedSize_eq_ok.mp (mapError_eq_ok.mp hsize)
    exact ⟨hfits, h⟩
  · rintro ⟨hfits, h⟩
    exact ⟨_, mapError_eq_ok.mpr (CqlType.fixedSize_of_fits hfits), h⟩

theorem vectored_of_encode {dimensions : UInt16}
    (h : Registry.standard.encode v (some (.vector element dimensions)) = .ok bytes) :
    ∃ vs, (v = .list vs ∨ v = .vector vs) ∧ vs.length = dimensions.toNat := by
  have hlength {vs : List Value} {type : Option CqlType}
      (h : vectorElement (some (.vector element dimensions)) vs = .ok type) :
      vs.length = dimensions.toNat := by
    by_cases hlen : vs.length = dimensions.toNat
    · exact hlen
    · rw [vectorElement, if_neg hlen] at h
      cases h
  cases v <;> try cases h
  · obtain ⟨_, htype, -⟩ := bind_eq_ok.mp h
    exact ⟨_, .inl rfl, hlength htype⟩
  · obtain ⟨_, htype, -⟩ := bind_eq_ok.mp h
    exact ⟨_, .inr rfl, hlength htype⟩

end Containers

/-! ## Sizes of all types -/

theorem CqlType.size_listed {type element : CqlType} {v : Value} {vs : List Value}
    (hlisted : type = .list element ∨ type = .set element) (hkind : v = .list vs ∨ v = .set vs) :
    type.size v = 4 + (vs.map fun w => 4 + element.size w).sum := by
  rcases hlisted with rfl | rfl <;> rcases hkind with rfl | rfl <;> rw [CqlType.size]

theorem hasSize_listed {type element : CqlType}
    (hlisted : type = .list element ∨ type = .set element) (ih : HasSize element) :
    HasSize type := by
  intro v bytes h
  obtain ⟨vs, hkind⟩ := listed_of_encode hlisted h
  rw [ih.counted ((encode_listed hlisted hkind).symm.trans h), CqlType.size_listed hlisted hkind]

theorem hasSize (type : CqlType) : HasSize type := by
  induction type using CqlType.inductionOn with
  | native type =>
    intro v bytes h
    exact (Scalar.length_of_scalar ((encode_native v).symm.trans h)).trans (by rw [CqlType.size])
  | custom className =>
    intro v bytes h
    cases h
  | list element ih => exact hasSize_listed (.inl rfl) ih
  | set element ih => exact hasSize_listed (.inr rfl) ih
  | map key value ihk ihv =>
    intro v bytes h
    obtain ⟨entries, rfl⟩ := mapped_of_encode h
    rw [encode_map] at h
    obtain ⟨front, hfront, h⟩ := bind_eq_ok.mp h
    obtain ⟨-, rfl⟩ := count_eq_ok.mp hfront
    obtain ⟨parts, hparts, h⟩ := bind_eq_ok.mp h
    cases h
    rw [List.length_append, Bytes.length_ofNat, CqlType.size, length_of_mapM hparts]
    intro entry _ part hw
    obtain ⟨keyPart, hkey, hw⟩ := bind_eq_ok.mp hw
    obtain ⟨valuePart, hvalue, hw⟩ := bind_eq_ok.mp hw
    cases hw
    rw [List.length_append, ihk.element hkey, ihv.element hvalue]
  | tuple types ih =>
    intro v bytes h
    obtain ⟨fields, rfl, hwidth⟩ := tuple_of_encode h
    rw [encode_tuple hwidth] at h
    obtain ⟨parts, hparts, rfl⟩ := map_eq_ok.mp h
    rw [CqlType.size, sizeOfTuple_eq, length_of_mapM hparts]
    exact fun field hfield part => (ih field.1 (List.of_mem_zip hfield).1).field
  | udt keyspace name types ih =>
    intro v bytes h
    obtain ⟨owner, other, fields, rfl, hdeclared⟩ := udt_of_encode h
    rw [encode_declared hdeclared] at h
    obtain ⟨parts, hparts, rfl⟩ := map_eq_ok.mp h
    rw [CqlType.size, sizeOfFields_eq, length_of_mapM hparts]
    exact fun field hfield part => (ih field hfield).field
  | vector element dimensions ih =>
    intro v bytes h
    obtain ⟨vs, hkind, hlength⟩ := vectored_of_encode h
    obtain ⟨-, h⟩ := (encode_vectored_eq_ok hkind hlength).mp h
    obtain ⟨parts, hparts, rfl⟩ := map_eq_ok.mp h
    have hsize : (CqlType.vector element dimensions).size v = (vs.map fun w =>
        (if element.exactSize.isSome then 0 else Vint.size (element.size w)) +
          element.size w).sum := by
      rcases hkind with rfl | rfl <;> rw [CqlType.size]
    rw [hsize, length_of_mapM hparts]
    exact fun v _ part => ih.component

/-- What is written has the size that is counted. -/
theorem length_eq_size {type : CqlType} {v : Value} {bytes : Bytes}
    (h : Registry.standard.encode v (some type) = .ok bytes) : bytes.length = type.size v :=
  hasSize type v bytes h

/-! ## What containers ask of their parts -/

/-- The registry has an encoding for the value. -/
def CqlType.Encodes (type : CqlType) (v : Value) : Prop :=
  ∃ bytes, Registry.standard.encode v (some type) = .ok bytes

theorem exists_mapM {α : Type} {write : α → Except EncodeFault Bytes} {as : List α} :
    (∃ parts, as.mapM write = .ok parts) ↔ ∀ a ∈ as, ∃ part, write a = .ok part := by
  induction as with
  | nil => exact ⟨fun _ => List.forall_mem_nil _, fun _ => ⟨[], rfl⟩⟩
  | cons a as ih =>
    rw [List.forall_mem_cons, ← ih]
    constructor
    · rintro ⟨parts, h⟩
      obtain ⟨part, others, hpart, hothers, -⟩ := mapM_cons_eq_ok.mp h
      exact ⟨⟨part, hpart⟩, others, hothers⟩
    · rintro ⟨⟨part, hpart⟩, others, hothers⟩
      exact ⟨_, mapM_cons_eq_ok.mpr ⟨part, others, hpart, hothers, rfl⟩⟩

/-- An element is written unless it is too long for its length. -/
theorem exists_element {type : CqlType} {v : Value} :
    (∃ part, Registry.standard.encodeFramed .sized (some type) v = .ok part) ↔
      type.size v ≤ Wire.maxInt32 ∧ type.Encodes v := by
  constructor
  · rintro ⟨part, h⟩
    obtain ⟨bytes, hbytes, hpart⟩ := encodeFramed_eq_ok.mp h
    exact ⟨length_eq_size hbytes ▸ (sized_eq_ok.mp hpart).1, bytes, hbytes⟩
  · rintro ⟨hsize, bytes, hbytes⟩
    rw [← length_eq_size hbytes] at hsize
    exact ⟨_, encodeFramed_eq_ok.mpr ⟨bytes, hbytes, sized_eq_ok.mpr ⟨hsize, rfl⟩⟩⟩

theorem exists_field {type : CqlType} {field : Option Value} :
    (∃ part, Registry.standard.encodeSized field (some type) = .ok part) ↔
      ∀ v, field = some v → type.size v ≤ Wire.maxInt32 ∧ type.Encodes v := by
  cases field with
  | none => exact ⟨fun _ => nofun, fun _ => ⟨_, rfl⟩⟩
  | some v =>
    refine exists_element.trans ⟨?_, fun h => h v rfl⟩
    rintro h v ⟨⟩
    exact h

theorem exists_component {type : CqlType} {v : Value} :
    (∃ part, Registry.standard.encodeFramed (vectorFraming type.exactSize) (some type) v =
      .ok part) ↔ (type.exactSize = none → type.size v < UInt64.size) ∧ type.Encodes v := by
  constructor
  · rintro ⟨part, h⟩
    obtain ⟨bytes, hbytes, hpart⟩ := encodeFramed_eq_ok.mp h
    exact ⟨length_eq_size hbytes ▸ ((vectorFraming_eq_ok hbytes).mp hpart).1, bytes, hbytes⟩
  · rintro ⟨hsize, bytes, hbytes⟩
    rw [← length_eq_size hbytes] at hsize
    exact ⟨_, encodeFramed_eq_ok.mpr
      ⟨bytes, hbytes, (vectorFraming_eq_ok hbytes).mpr ⟨hsize, rfl⟩⟩⟩

/-- An entry is written if its key and its value are. -/
theorem exists_entry {key value : CqlType} {entry : Value × Value} :
    (∃ part, Registry.standard.encodeEntry (some key) (some value) entry = .ok part) ↔
      (key.size entry.1 ≤ Wire.maxInt32 ∧ key.Encodes entry.1) ∧
        value.size entry.2 ≤ Wire.maxInt32 ∧ value.Encodes entry.2 := by
  rw [← exists_element, ← exists_element]
  constructor
  · rintro ⟨part, h⟩
    obtain ⟨keyPart, hkey, h⟩ := bind_eq_ok.mp h
    obtain ⟨valuePart, hvalue, -⟩ := bind_eq_ok.mp h
    exact ⟨⟨keyPart, hkey⟩, valuePart, hvalue⟩
  · rintro ⟨⟨keyPart, hkey⟩, valuePart, hvalue⟩
    exact ⟨_, bind_eq_ok.mpr ⟨keyPart, hkey, bind_eq_ok.mpr ⟨valuePart, hvalue, rfl⟩⟩⟩

section Rows

variable {α : Type} {write : α → Except EncodeFault Bytes} {as : List α}

theorem exists_row : (∃ bytes, List.flatten <$> as.mapM write = .ok bytes) ↔
    ∀ a ∈ as, ∃ part, write a = .ok part := by
  rw [← exists_mapM]
  constructor
  · rintro ⟨bytes, h⟩
    obtain ⟨parts, hparts, -⟩ := map_eq_ok.mp h
    exact ⟨parts, hparts⟩
  · rintro ⟨parts, hparts⟩
    exact ⟨_, map_eq_ok.mpr ⟨parts, hparts, rfl⟩⟩

/-- Parts in a row behind a count. -/
theorem exists_counted {n : Nat} : (∃ bytes, (do
      let front ← Codec.count n
      let parts ← as.mapM write
      return front ++ parts.flatten : Except EncodeFault Bytes) = .ok bytes) ↔
    n ≤ Wire.maxInt32 ∧ ∀ a ∈ as, ∃ part, write a = .ok part := by
  rw [← exists_mapM]
  constructor
  · rintro ⟨bytes, h⟩
    obtain ⟨front, hfront, h⟩ := bind_eq_ok.mp h
    obtain ⟨parts, hparts, -⟩ := bind_eq_ok.mp h
    exact ⟨(count_eq_ok.mp hfront).1, parts, hparts⟩
  · rintro ⟨hcount, parts, hparts⟩
    exact ⟨_, bind_eq_ok.mpr ⟨_, count_eq_ok.mpr ⟨hcount, rfl⟩,
      bind_eq_ok.mpr ⟨parts, hparts, rfl⟩⟩⟩

end Rows

namespace CqlType

/-- The value is one of the type, whatever its parts are. -/
def Suits : CqlType → Value → Prop
  | .native type, v => type.Inhabits v
  | .custom _, _ => False
  | .list _, v | .set _, v => ∃ vs, v = .list vs ∨ v = .set vs
  | .map .., v => ∃ entries, v = .map entries
  | .tuple types, v => ∃ fields, v = .tuple fields ∧ types.length = fields.length
  | .udt _ _ types, v => ∃ owner other fields, v = .udt owner other fields ∧
      ∀ field ∈ fields, field.1 ∈ types.map Prod.fst
  | .vector _ dimensions, v => ∃ vs, (v = .list vs ∨ v = .vector vs) ∧ vs.length = dimensions.toNat

section Parts

variable {type element key value : CqlType} {v : Value} {vs : List Value}
  {P : CqlType × Value → Prop}

theorem parts_listed (hlisted : type = .list element ∨ type = .set element)
    (hkind : v = .list vs ∨ v = .set vs) : type.parts v = vs.map (element, ·) := by
  rcases hlisted with rfl | rfl <;> rcases hkind with rfl | rfl <;> rfl

theorem count_listed (hlisted : type = .list element ∨ type = .set element)
    (hkind : v = .list vs ∨ v = .set vs) : type.count v = vs.length := by
  rcases hlisted with rfl | rfl <;> rcases hkind with rfl | rfl <;> rfl

theorem parts_vectored {dimensions : UInt16} (hkind : v = .list vs ∨ v = .vector vs) :
    (CqlType.vector element dimensions).parts v = vs.map (element, ·) := by
  rcases hkind with rfl | rfl <;> rfl

theorem forall_parts_map {entries : List (Value × Value)} :
    (∀ part ∈ (CqlType.map key value).parts (.map entries), P part) ↔
      ∀ entry ∈ entries, P (key, entry.1) ∧ P (value, entry.2) := by
  simp only [parts, List.mem_flatMap]
  constructor
  · exact fun h entry hentry => ⟨h _ ⟨entry, hentry, List.mem_cons_self ..⟩,
      h _ ⟨entry, hentry, List.mem_cons_of_mem _ (List.mem_cons_self ..)⟩⟩
  · rintro h part ⟨entry, hentry, hpart⟩
    obtain ⟨hkey, hvalue⟩ := h entry hentry
    rw [List.mem_cons, List.mem_singleton] at hpart
    rcases hpart with rfl | rfl
    · exact hkey
    · exact hvalue

theorem forall_parts_tuple {types : List CqlType} {fields : List (Option Value)} :
    (∀ part ∈ (CqlType.tuple types).parts (.tuple fields), P part) ↔
      ∀ field ∈ types.zip fields, ∀ v, field.2 = some v → P (field.1, v) := by
  simp only [parts, List.mem_filterMap, Option.map_eq_some_iff]
  constructor
  · exact fun h field hfield v hv => h _ ⟨field, hfield, v, hv, rfl⟩
  · rintro h _ ⟨field, hfield, v, hv, rfl⟩
    exact h field hfield v hv

theorem forall_parts_udt {keyspace name owner other : String} {types : List (String × CqlType)}
    {fields : List (String × Option Value)} :
    (∀ part ∈ (CqlType.udt keyspace name types).parts (.udt owner other fields), P part) ↔
      ∀ field ∈ types, ∀ v, fields.lookup field.1 = some (some v) → P (field.2, v) := by
  simp only [parts, List.mem_filterMap, Option.map_eq_some_iff, Option.join_eq_some_iff]
  constructor
  · exact fun h field hfield v hv => h _ ⟨field, hfield, v, hv, rfl⟩
  · rintro h _ ⟨field, hfield, v, hv, rfl⟩
    exact h field hfield v hv

end Parts

/-- Parts are written by the types that a type is directly built from. -/
theorem forall_parts_of_children {type : CqlType} {v : Value} {P : CqlType × Value → Prop}
    (hsuits : type.Suits v) (h : ∀ child ∈ type.children, ∀ w, P (child, w)) :
    ∀ part ∈ type.parts v, P part := by
  cases type with
  | native type => exact nofun
  | custom className => exact nofun
  | list element =>
    obtain ⟨vs, hkind⟩ := hsuits
    rw [parts_listed (.inl rfl) hkind, List.forall_mem_map]
    exact fun w _ => h element (List.mem_singleton_self _) w
  | set element =>
    obtain ⟨vs, hkind⟩ := hsuits
    rw [parts_listed (.inr rfl) hkind, List.forall_mem_map]
    exact fun w _ => h element (List.mem_singleton_self _) w
  | map key value =>
    obtain ⟨entries, rfl⟩ := hsuits
    rw [forall_parts_map]
    exact fun entry _ => ⟨h key (List.mem_cons_self ..) entry.1,
      h value (List.mem_cons_of_mem _ (List.mem_cons_self ..)) entry.2⟩
  | tuple types =>
    obtain ⟨fields, rfl, -⟩ := hsuits
    rw [forall_parts_tuple]
    exact fun field hfield v _ => h field.1 (List.of_mem_zip hfield).1 v
  | udt keyspace name types =>
    obtain ⟨owner, other, fields, rfl, -⟩ := hsuits
    rw [forall_parts_udt]
    exact fun field hfield v _ => h field.2 (List.mem_map_of_mem hfield) v
  | vector element dimensions =>
    obtain ⟨vs, hkind, -⟩ := hsuits
    rw [parts_vectored hkind, List.forall_mem_map]
    exact fun w _ => h element (List.mem_singleton_self _) w

/-- A value inhabits a type if it suits the type and its parts inhabit theirs. -/
theorem inhabits_iff {type : CqlType} {v : Value} :
    type.Inhabits v ↔ type.Suits v ∧ ∀ part ∈ type.parts v, part.1.Inhabits part.2 := by
  constructor
  · intro h
    cases h with
    | native hinhabits => exact ⟨hinhabits, nofun⟩
    | list hkind heach =>
      rw [parts_listed (.inl rfl) hkind, List.forall_mem_map]
      exact ⟨⟨_, hkind⟩, heach⟩
    | set hkind heach =>
      rw [parts_listed (.inr rfl) hkind, List.forall_mem_map]
      exact ⟨⟨_, hkind⟩, heach⟩
    | map hkeys hvalues =>
      rw [forall_parts_map]
      exact ⟨⟨_, rfl⟩, fun entry hentry => ⟨hkeys entry hentry, hvalues entry hentry⟩⟩
    | tuple hwidth heach =>
      rw [forall_parts_tuple]
      exact ⟨⟨_, rfl, hwidth⟩, heach⟩
    | udt hdeclared heach =>
      rw [forall_parts_udt]
      exact ⟨⟨_, _, _, rfl, hdeclared⟩, heach⟩
    | vector hkind hlength heach =>
      rw [parts_vectored hkind, List.forall_mem_map]
      exact ⟨⟨_, hkind, hlength⟩, heach⟩
  · rintro ⟨hsuits, heach⟩
    cases type with
    | native type => exact .native hsuits
    | custom className => exact hsuits.elim
    | list element =>
      obtain ⟨vs, hkind⟩ := hsuits
      rw [parts_listed (.inl rfl) hkind, List.forall_mem_map] at heach
      exact .list hkind heach
    | set element =>
      obtain ⟨vs, hkind⟩ := hsuits
      rw [parts_listed (.inr rfl) hkind, List.forall_mem_map] at heach
      exact .set hkind heach
    | map key value =>
      obtain ⟨entries, rfl⟩ := hsuits
      rw [forall_parts_map] at heach
      exact .map (fun entry hentry => (heach entry hentry).1) fun entry hentry =>
        (heach entry hentry).2
    | tuple types =>
      obtain ⟨fields, rfl, hwidth⟩ := hsuits
      rw [forall_parts_tuple] at heach
      exact .tuple hwidth heach
    | udt keyspace name types =>
      obtain ⟨owner, other, fields, rfl, hdeclared⟩ := hsuits
      rw [forall_parts_udt] at heach
      exact .udt hdeclared heach
    | vector element dimensions =>
      obtain ⟨vs, hkind, hlength⟩ := hsuits
      rw [parts_vectored hkind, List.forall_mem_map] at heach
      exact .vector hkind hlength heach

theorem suits_of_encodes {type : CqlType} {v : Value} (h : type.Encodes v) : type.Suits v := by
  obtain ⟨bytes, h⟩ := h
  cases type with
  | native type => exact Scalar.inhabits_of_encode ((encode_native v).symm.trans h)
  | custom className => cases h
  | list element => exact listed_of_encode (.inl rfl) h
  | set element => exact listed_of_encode (.inr rfl) h
  | map key value => exact mapped_of_encode h
  | tuple types => exact tuple_of_encode h
  | udt keyspace name types =>
    obtain ⟨owner, other, fields, rfl, hdeclared⟩ := udt_of_encode h
    exact ⟨owner, other, fields, rfl, undeclared?_eq_none_iff.mp hdeclared⟩
  | vector element dimensions => exact vectored_of_encode h

theorem encodes_listed_iff {type element : CqlType} {v : Value}
    (hlisted : type = .list element ∨ type = .set element)
    (hkind : ∃ vs, v = .list vs ∨ v = .set vs) :
    type.Encodes v ↔ type.count v ≤ Wire.maxInt32 ∧
      ∀ part ∈ type.parts v, part.1.size part.2 ≤ Wire.maxInt32 ∧ part.1.Encodes part.2 := by
  obtain ⟨vs, hkind⟩ := hkind
  rw [Encodes, encode_listed hlisted hkind, parts_listed hlisted hkind, count_listed hlisted hkind,
    List.forall_mem_map]
  exact exists_counted.trans (and_congr_right' (forall₂_congr fun w _ => exists_element))

/-- A value that suits a type is written if its parts are, the size of the parts can be counted and
what stands in front of them fits. -/
theorem encodes_iff_of_suits {type : CqlType} {v : Value} (hsuits : type.Suits v) :
    type.Encodes v ↔ type.ElementSizeFits ∧ type.count v ≤ Wire.maxInt32 ∧
      ∀ part ∈ type.parts v, type.FitsLength (part.1.size part.2) ∧ part.1.Encodes part.2 := by
  cases type with
  | native type =>
    obtain ⟨bytes, h⟩ := Scalar.encode_of_inhabits hsuits
    exact ⟨fun _ => ⟨trivial, Nat.zero_le _, nofun⟩, fun _ => ⟨bytes, (encode_native v).trans h⟩⟩
  | custom className => exact hsuits.elim
  | list element => exact (encodes_listed_iff (.inl rfl) hsuits).trans (and_iff_right trivial).symm
  | set element => exact (encodes_listed_iff (.inr rfl) hsuits).trans (and_iff_right trivial).symm
  | map key value =>
    obtain ⟨entries, rfl⟩ := hsuits
    rw [Encodes, encode_map, forall_parts_map]
    refine (exists_counted.trans (and_congr_right' ?_)).trans (and_iff_right trivial).symm
    exact forall₂_congr fun entry _ => exists_entry
  | tuple types =>
    obtain ⟨fields, rfl, hwidth⟩ := hsuits
    rw [Encodes, encode_tuple hwidth, exists_row, forall_parts_tuple]
    exact ((forall₂_congr fun field _ => exists_field).trans
      (and_iff_right (Nat.zero_le _)).symm).trans (and_iff_right trivial).symm
  | udt keyspace name types =>
    obtain ⟨owner, other, fields, rfl, hdeclared⟩ := hsuits
    rw [Encodes, encode_declared (undeclared?_eq_none_iff.mpr hdeclared), exists_row,
      forall_parts_udt]
    refine ((forall₂_congr fun field _ => ?_).trans (and_iff_right (Nat.zero_le _)).symm).trans
      (and_iff_right trivial).symm
    rw [exists_field]
    exact forall_congr' fun v => imp_congr_left Option.join_eq_some_iff
  | vector element dimensions =>
    obtain ⟨vs, hkind, hlength⟩ := hsuits
    have hcount : (CqlType.vector element dimensions).count v ≤ Wire.maxInt32 := by
      rcases hkind with rfl | rfl <;> exact Nat.zero_le _
    rw [Encodes, and_iff_right hcount, parts_vectored hkind, List.forall_mem_map]
    simp only [encode_vectored_eq_ok hkind hlength, exists_and_left, exists_row]
    exact and_congr_right' (forall₂_congr fun w _ => exists_component)

/-- A type whose values are written if they inhabit it, all that stands in front of their parts
fits, and the sizes of the elements of vectors can be counted. -/
def EncodesExactly (type : CqlType) : Prop :=
  ∀ v, type.Encodes v ↔ type.Inhabits v ∧ type.Fits v ∧ type.SizesFit v

theorem encodesExactly_of_children (type : CqlType)
    (ih : ∀ child ∈ type.children, child.EncodesExactly) : type.EncodesExactly := by
  intro v
  have hdeeper (hsuits : type.Suits v) : ∀ part ∈ type.parts v, (part.1.Encodes part.2 ↔
      part.1.Inhabits part.2 ∧ part.1.Fits part.2 ∧ part.1.SizesFit part.2) :=
    forall_parts_of_children hsuits ih
  rw [inhabits_iff, fits_iff, sizesFit_iff]
  constructor
  · intro h
    have hsuits := suits_of_encodes h
    obtain ⟨hown, hcount, heach⟩ := (encodes_iff_of_suits hsuits).mp h
    have hparts (part) (hpart : part ∈ type.parts v) :=
      (hdeeper hsuits part hpart).mp (heach part hpart).2
    exact ⟨⟨hsuits, fun part hpart => (hparts part hpart).1⟩,
      ⟨hcount, fun part hpart => ⟨(heach part hpart).1, (hparts part hpart).2.1⟩⟩,
      hown, fun part hpart => (hparts part hpart).2.2⟩
  · rintro ⟨⟨hsuits, hinhabits⟩, ⟨hcount, hfits⟩, hown, hsizes⟩
    refine (encodes_iff_of_suits hsuits).mpr
      ⟨hown, hcount, fun part hpart => ⟨(hfits part hpart).1, ?_⟩⟩
    exact (hdeeper hsuits part hpart).mpr
      ⟨hinhabits part hpart, (hfits part hpart).2, hsizes part hpart⟩

theorem encodesExactly (type : CqlType) : type.EncodesExactly :=
  inductionOnChildren encodesExactly_of_children type

/-- No size in the type is too large. -/
theorem sizesFit_of_occurs {type : CqlType} {v : Value} (hinhabits : type.Inhabits v)
    (h : ∀ part, Occurs part type → part.SizeFits) : type.SizesFit v := by
  induction type using inductionOnChildren generalizing v with
  | step type ih =>
    obtain ⟨hsuits, heach⟩ := inhabits_iff.mp hinhabits
    have hown : type.ElementSizeFits := by
      cases type with
      | vector element dimensions => exact h element (.inside (List.mem_singleton_self _) .here)
      | _ => trivial
    have hdeeper : ∀ part ∈ type.parts v, part.1.Inhabits part.2 → part.1.SizesFit part.2 :=
      forall_parts_of_children hsuits fun child hchild w hw =>
        ih child hchild hw fun part hpart => h part (.inside hchild hpart)
    exact .of_parts hown fun part hpart => hdeeper part hpart (heach part hpart)

/-! ## What is not written although it inhabits its type -/

/-- The program gives up over a size, if anything goes wrong. -/
abbrev OnlyOverflows {α : Type} (x : Except EncodeFault α) : Prop :=
  FaultsIn (· = .panic .multiplyOverflow) x

theorem onlyOverflows_element {type : CqlType} {v : Value} (hsize : type.size v ≤ Wire.maxInt32)
    (h : OnlyOverflows (Registry.standard.encode v (some type))) :
    OnlyOverflows (Registry.standard.encodeFramed .sized (some type) v) := by
  refine h.bind fun bytes hbytes => ?_
  rw [← length_eq_size hbytes] at hsize
  rw [sized_eq_ok.mpr ⟨hsize, rfl⟩]
  exact faultsIn_ok _

theorem onlyOverflows_component {type : CqlType} {v : Value}
    (hsize : type.exactSize = none → type.size v < UInt64.size)
    (h : OnlyOverflows (Registry.standard.encode v (some type))) :
    OnlyOverflows
      (Registry.standard.encodeFramed (vectorFraming type.exactSize) (some type) v) := by
  refine h.bind fun bytes hbytes => ?_
  rw [← length_eq_size hbytes] at hsize
  rw [(vectorFraming_eq_ok hbytes).mpr ⟨hsize, rfl⟩]
  exact faultsIn_ok _

theorem onlyOverflows_counted {α : Type} {write : α → Except EncodeFault Bytes} {as : List α}
    {n : Nat} (hcount : n ≤ Wire.maxInt32) (h : ∀ a ∈ as, OnlyOverflows (write a)) :
    OnlyOverflows (do
      let front ← Codec.count n
      let parts ← as.mapM write
      return front ++ parts.flatten) := by
  rw [count_eq_ok.mpr ⟨hcount, rfl⟩]
  exact (FaultsIn.mapM h).bind fun parts _ => faultsIn_ok _

theorem onlyOverflows_field {type : CqlType} {field : Option Value}
    (h : ∀ v, field = some v → type.size v ≤ Wire.maxInt32 ∧
      OnlyOverflows (Registry.standard.encode v (some type))) :
    OnlyOverflows (Registry.standard.encodeSized field (some type)) := by
  cases field with
  | none => exact faultsIn_ok _
  | some v => exact onlyOverflows_element (h v rfl).1 (h v rfl).2

theorem onlyOverflows_fixedSize (type : CqlType) :
    OnlyOverflows (type.fixedSize.mapError EncodeFault.panic) := by
  by_cases hfits : type.SizeFits
  · rw [fixedSize_of_fits hfits]
    exact faultsIn_ok _
  · rw [fixedSize_of_not_fits hfits]
    exact faultsIn_error rfl

section Step

variable {type element : CqlType} {v : Value} (hcount : type.count v ≤ Wire.maxInt32)
  (heach : ∀ part ∈ type.parts v, type.FitsLength (part.1.size part.2) ∧
    OnlyOverflows (Registry.standard.encode part.2 (some part.1)))
include hcount heach

theorem onlyOverflows_listed (hlisted : type = .list element ∨ type = .set element)
    (hkind : ∃ vs, v = .list vs ∨ v = .set vs) :
    OnlyOverflows (Registry.standard.encode v (some type)) := by
  obtain ⟨vs, hkind⟩ := hkind
  have hfits (size : Nat) : type.FitsLength size ↔ size ≤ Wire.maxInt32 := by
    rcases hlisted with rfl | rfl <;> rfl
  rw [parts_listed hlisted hkind, List.forall_mem_map] at heach
  rw [count_listed hlisted hkind] at hcount
  rw [encode_listed hlisted hkind]
  exact onlyOverflows_counted hcount fun w hw =>
    onlyOverflows_element ((hfits _).mp (heach w hw).1) (heach w hw).2

/-- What goes wrong with a value that suits its type goes wrong with one of its parts, or it is the
size of the parts. -/
theorem onlyOverflows_of_suits (hsuits : type.Suits v) :
    OnlyOverflows (Registry.standard.encode v (some type)) := by
  cases type with
  | native type =>
    obtain ⟨bytes, h⟩ := Scalar.encode_of_inhabits hsuits
    rw [encode_native, h]
    exact faultsIn_ok _
  | custom className => exact hsuits.elim
  | list element => exact onlyOverflows_listed hcount heach (.inl rfl) hsuits
  | set element => exact onlyOverflows_listed hcount heach (.inr rfl) hsuits
  | map key value =>
    obtain ⟨entries, rfl⟩ := hsuits
    rw [forall_parts_map] at heach
    rw [encode_map]
    refine onlyOverflows_counted hcount fun entry hentry => ?_
    obtain ⟨⟨hkeyFits, hkey⟩, hvalueFits, hvalue⟩ := heach entry hentry
    exact (onlyOverflows_element hkeyFits hkey).bind fun _ _ =>
      (onlyOverflows_element hvalueFits hvalue).bind fun _ _ => faultsIn_ok _
  | tuple types =>
    obtain ⟨fields, rfl, hwidth⟩ := hsuits
    rw [forall_parts_tuple] at heach
    rw [encode_tuple hwidth]
    exact (FaultsIn.mapM fun field hfield => onlyOverflows_field (heach field hfield)).map _
  | udt keyspace name types =>
    obtain ⟨owner, other, fields, rfl, hdeclared⟩ := hsuits
    rw [forall_parts_udt] at heach
    rw [encode_declared (undeclared?_eq_none_iff.mpr hdeclared)]
    exact (FaultsIn.mapM fun field hfield => onlyOverflows_field fun v hv =>
      heach field hfield v (Option.join_eq_some_iff.mp hv)).map _
  | vector element dimensions =>
    obtain ⟨vs, hkind, hlength⟩ := hsuits
    rw [parts_vectored hkind, List.forall_mem_map] at heach
    rw [encode_vectored hkind hlength]
    refine (onlyOverflows_fixedSize element).bind fun size hsize => ?_
    obtain rfl := exactSize_of_fixedSize (mapError_eq_ok.mp hsize)
    exact (FaultsIn.mapM fun w hw => onlyOverflows_component (heach w hw).1 (heach w hw).2).map _

end Step

theorem onlyOverflows_of_inhabits {type : CqlType} {v : Value} (hinhabits : type.Inhabits v)
    (hfits : type.Fits v) : OnlyOverflows (Registry.standard.encode v (some type)) := by
  induction type using inductionOnChildren generalizing v with
  | step type ih =>
    obtain ⟨hsuits, hinhabits⟩ := inhabits_iff.mp hinhabits
    obtain ⟨hcount, hfits⟩ := fits_iff.mp hfits
    have hdeeper : ∀ part ∈ type.parts v, part.1.Inhabits part.2 → part.1.Fits part.2 →
        OnlyOverflows (Registry.standard.encode part.2 (some part.1)) :=
      forall_parts_of_children hsuits fun child hchild w => ih child hchild
    exact onlyOverflows_of_suits hcount (fun part hpart => ⟨(hfits part hpart).1,
      hdeeper part hpart (hinhabits part hpart) (hfits part hpart).2⟩) hsuits

end CqlType

/-- With the standard codecs, exactly the values that inhabit a type are written by it, provided
that all counts and all lengths in front of their parts fit, and that the sizes of the elements of
vectors can be counted. The last goes without saying if no size in the type is too large; and where
nothing else is amiss, the program gives up over it. -/
theorem encodes_iff_inhabits_and_fits (type : CqlType) (v : Value) :
    ((∃ bytes, Registry.standard.encode v (some type) = .ok bytes) ↔
      type.Inhabits v ∧ type.Fits v ∧ type.SizesFit v) ∧
    ((∀ part, CqlType.Occurs part type → part.SizeFits) →
      ((∃ bytes, Registry.standard.encode v (some type) = .ok bytes) ↔
        type.Inhabits v ∧ type.Fits v)) ∧
    (type.Inhabits v → type.Fits v → ¬ type.SizesFit v →
      Registry.standard.encode v (some type) = .error (.panic .multiplyOverflow)) := by
  have hexactly := type.encodesExactly v
  refine ⟨hexactly, fun hsmall => ?claimed, fun hinhabits hfits htight => ?overflows⟩
  case claimed =>
    refine hexactly.trans (and_congr_right fun hinhabits => and_iff_left ?_)
    exact CqlType.sizesFit_of_occurs hinhabits hsmall
  case overflows =>
    cases h : Registry.standard.encode v (some type) with
    | ok bytes => exact absurd (hexactly.mp ⟨bytes, h⟩).2.2 htight
    | error fault => rw [CqlType.onlyOverflows_of_inhabits hinhabits hfits fault h]

/-- No vector of vectors whose size is too large is written, not even an empty one. -/
theorem not_encoded_vector_of_nestedUuids :
    (CqlType.vector .nestedUuids 0).Inhabits (.vector []) ∧
      (CqlType.vector .nestedUuids 0).Fits (.vector []) ∧
      Registry.standard.encode (.vector []) (some (.vector .nestedUuids 0)) =
        .error (.panic .multiplyOverflow) :=
  ⟨.vector (.inr rfl) rfl (List.forall_mem_nil _),
    .of_parts (Nat.zero_le _) (List.forall_mem_nil _) (List.forall_mem_nil _), rfl⟩

end CqlClient
