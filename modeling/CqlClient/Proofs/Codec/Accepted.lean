import CqlClient.Proofs.Codec.Inferred
import CqlClient.Proofs.Fronts
import Mathlib.Data.List.Zip

/-!
# Bytes that are accepted

What bytes must be for a reader to make something of them, and what is written for it again:

* `accepts_readElement`, `accepts_readCount`, `accepts_readBare`: parts that have one form only;
* `all_of_nothingLeft`: a container uses up its bytes;
* `Scalar.encode_of_decode`: a native value that was read can be written, and most of them have one
  form only.
-/

namespace CqlClient

open Codec Scalar

/-! ## Numbers -/

theorem ofNat_toNat_of_length {bytes : Bytes} {width : Nat} (h : bytes.length = width) :
    Bytes.ofNat width bytes.toNat = bytes := by
  subst h
  exact ofNat_toNat bytes

theorem toNat_lt_of_length {bytes : Bytes} {width : Nat} (h : bytes.length = width) :
    bytes.toNat < 256 ^ width := by
  subst h
  exact toNat_lt bytes

theorem ofUInt32_toUInt32 {bytes : Bytes} (h : bytes.length = 4) :
    Bytes.ofUInt32 bytes.toUInt32 = bytes := by
  have hlt := toNat_lt_of_length h
  rw [Bytes.ofUInt32, Bytes.toUInt32, UInt32.toNat_ofNat', Nat.mod_eq_of_lt (by omega),
    ofNat_toNat_of_length h]

theorem ofUInt64_toUInt64 {bytes : Bytes} (h : bytes.length = 8) :
    Bytes.ofUInt64 bytes.toUInt64 = bytes := by
  have hlt := toNat_lt_of_length h
  rw [Bytes.ofUInt64, Bytes.toUInt64, UInt64.toNat_ofNat', Nat.mod_eq_of_lt (by omega),
    ofNat_toNat_of_length h]

theorem ofInt8_toInt8 {bytes : Bytes} (h : bytes.length = 1) :
    Bytes.ofInt8 bytes.toInt8 = bytes := by
  have hlt := toNat_lt_of_length h
  rw [Bytes.ofInt8, Bytes.toInt8, UInt8.toUInt8_toInt8, UInt8.toNat_ofNat',
    Nat.mod_eq_of_lt (by omega), ofNat_toNat_of_length h]

theorem ofInt16_toInt16 {bytes : Bytes} (h : bytes.length = 2) :
    Bytes.ofInt16 bytes.toInt16 = bytes := by
  rw [Bytes.ofInt16, Bytes.toInt16, UInt16.toUInt16_toInt16]
  exact ofUInt16_toUInt16 h

theorem ofInt32_toInt32 {bytes : Bytes} (h : bytes.length = 4) :
    Bytes.ofInt32 bytes.toInt32 = bytes := by
  rw [Bytes.ofInt32, Bytes.toInt32, UInt32.toUInt32_toInt32]
  exact ofUInt32_toUInt32 h

theorem ofInt64_toInt64 {bytes : Bytes} (h : bytes.length = 8) :
    Bytes.ofInt64 bytes.toInt64 = bytes := by
  rw [Bytes.ofInt64, Bytes.toInt64, UInt64.toUInt64_toInt64]
  exact ofUInt64_toUInt64 h

/-! ## Parts of containers -/

theorem accepts_int32 : Accepts Wire.int32 fun front n => front = Bytes.ofInt32 n := by
  refine (accepts_raw 4).map ?_
  rintro front bytes ⟨rfl, hlen⟩
  exact (ofInt32_toInt32 hlen).symm

/-- A length that is not negative fits 31 bits. -/
theorem ofInt32_of_nonneg {n : Int32} (h : ¬ n < 0) :
    Bytes.ofInt32 n = Bytes.ofNat 4 n.toInt.toNat ∧ n.toInt.toNat ≤ Wire.maxInt32 := by
  have hpos : 0 ≤ n.toInt := by
    rw [Int32.lt_iff_toInt_lt] at h
    exact Int.not_lt.mp h
  have hmax : n.toInt.toNat ≤ Wire.maxInt32 := by
    have hlt := n.toInt_lt
    simp only [Wire.maxInt32]
    omega
  have hself : Int32.ofNat n.toInt.toNat = n := by
    apply Int32.toInt_inj.mp
    rw [toInt_int32_ofNat hmax]
    omega
  refine ⟨?_, hmax⟩
  rw [← ofInt32_ofNat hmax, hself]

/-- Null has as many forms as there are negative lengths, and other bytes have one. -/
theorem accepts_optionalBytes : Accepts Wire.optionalBytes fun front part =>
    ∀ bytes, part = some bytes → front = Wire.writeBytes bytes ∧ bytes.length ≤ Wire.maxInt32 := by
  refine accepts_int32.bind ?_
  rintro _ n rfl
  by_cases hneg : n < 0
  · rw [if_pos hneg]
    exact accepts_pure nofun
  · rw [if_neg hneg]
    obtain ⟨hfront, hmax⟩ := ofInt32_of_nonneg hneg
    refine (accepts_raw _).map ?_
    rintro back bytes ⟨rfl, hlen⟩ _ ⟨⟩
    rw [Wire.writeBytes, hlen]
    exact ⟨by rw [hfront], hmax⟩

section Parts

variable {decode : PartDecoder} {α β : Type}

theorem accepts_wire {r : Wire.WireReader α} {P : Bytes → α → Prop} (h : Accepts r P) :
    Accepts (wire r) P := h.mapError _

theorem accepts_ofExcept {result : Except DecodeFault α} :
    Accepts (Reader.ofExcept result) fun front a => front = [] ∧ result = .ok a := by
  intro bytes a rest h
  obtain ⟨hresult, rfl⟩ := Reader.ofExcept_eq_ok.mp h
  exact ⟨[], rfl, rfl, hresult⟩

theorem accepts_readElement : Accepts (readElement decode) fun front v =>
    ∃ bytes, front = Wire.writeBytes bytes ∧ bytes.length ≤ Wire.maxInt32 ∧
      decode bytes = .ok v := by
  refine (accepts_wire accepts_optionalBytes).bind ?_
  intro front part hpart
  cases part with
  | none => exact accepts_throw _
  | some bytes =>
    obtain ⟨rfl, hlen⟩ := hpart bytes rfl
    intro input v rest hread
    obtain ⟨back, rfl, rfl, hv⟩ := accepts_ofExcept _ _ _ hread
    exact ⟨[], rfl, bytes, List.append_nil _, hlen, hv⟩

theorem accepts_readCount : Accepts readCount fun front n =>
    front = Bytes.ofNat 4 n ∧ n ≤ Wire.maxInt32 := by
  refine (accepts_wire accepts_int32).bind ?_
  rintro _ n rfl
  by_cases hneg : n < 0
  · rw [if_pos hneg]
    exact accepts_throw _
  · rw [if_neg hneg]
    refine accepts_pure ?_
    rw [List.append_nil]
    exact ofInt32_of_nonneg hneg

/-- An element of a fixed size stands there as it is. -/
theorem accepts_readBare (size : Nat) : Accepts (readComponent (some size) decode) fun front v =>
    front.length = size ∧ decode front = .ok v := by
  have hbytes : Accepts (wire (Wire.raw size) >>= fun bytes => Reader.ofExcept (decode bytes))
      fun front v => front.length = size ∧ decode front = .ok v := by
    refine (accepts_wire (accepts_raw size)).bind ?_
    rintro _ bytes ⟨rfl, hlen⟩
    intro input v rest hread
    obtain ⟨back, rfl, rfl, hv⟩ := accepts_ofExcept _ _ _ hread
    exact ⟨[], rfl, by rwa [List.append_nil], by rwa [List.append_nil]⟩
  exact hbytes

/-- Reading that ends with a check for trailing bytes uses up all of them. -/
theorem all_of_nothingLeft {r : Reader DecodeFault α} {P : Bytes → α → Prop} (hr : Accepts r P)
    {what : String} {g : α → β} {bytes : Bytes} {b : β}
    (h : (do let a ← r; nothingLeft what; return g a : Reader DecodeFault β).outcome bytes =
      .ok b) : ∃ a, P bytes a ∧ g a = b := by
  obtain ⟨rest, h⟩ := Reader.outcome_eq_ok.mp h
  obtain ⟨a, middle, ha, h⟩ := Reader.bind_eq_ok.mp h
  obtain ⟨_, last, hnone, h⟩ := Reader.bind_eq_ok.mp h
  cases h
  have hempty : middle = [] := by
    obtain ⟨left, _, hleft, hnone⟩ := Reader.bind_eq_ok.mp hnone
    cases hleft
    cases middle with
    | nil => rfl
    | cons b middle => cases hnone
  obtain ⟨front, hfront, hP⟩ := hr _ _ _ ha
  rw [hempty, List.append_nil] at hfront
  exact ⟨a, hfront ▸ hP, rfl⟩

end Parts

/-! ## Native values -/

/-- The types of which no value has two encodings. -/
def Native.hasOneForm : Native → Bool
  | boolean | varint | decimal | duration => false
  | _ => true

/-- The first byte of any other character is not one of ASCII. -/
theorem exists_nonAscii {c : Char} (h : 128 ≤ c.val.toNat) :
    ∃ b ∈ String.utf8EncodeChar c, 128 ≤ b.toNat := by
  have hfirst : ∀ {n : Nat} {rest : Bytes}, 128 ≤ n → n < 256 →
      ∃ b ∈ UInt8.ofNat n :: rest, 128 ≤ b.toNat := by
    intro n rest hle hlt
    refine ⟨UInt8.ofNat n, List.mem_cons_self .., ?_⟩
    rw [UInt8.toNat_ofNat', Nat.mod_eq_of_lt (by omega)]
    exact hle
  have hwide : ¬ c.val.toNat ≤ 127 := by omega
  simp only [String.utf8EncodeChar, hwide, if_false]
  split
  · exact hfirst (by omega) (by omega)
  · split
    · exact hfirst (by omega) (by omega)
    · exact hfirst (by omega) (by omega)

theorem Utf8.isAscii_of_decode {bytes : Bytes} {s : String} (hall : bytes.all (· < 128) = true)
    (h : Utf8.decode bytes = .ok s) : Scalar.isAscii s = true := by
  rw [← Utf8.encode_of_decode h, Utf8.encode_eq_flatMap, List.all_flatMap, List.all_eq_true] at hall
  refine List.all_eq_true.mpr fun c hc => decide_eq_true ?_
  by_contra hwide
  obtain ⟨b, hb, hlarge⟩ := exists_nonAscii (Nat.not_lt.mp hwide)
  have hsmall := of_decide_eq_true (List.all_eq_true.mp (hall c hc) b hb)
  rw [UInt8.lt_iff_toNat_lt] at hsmall
  exact absurd hsmall (Nat.not_lt.mpr hlarge)

namespace Scalar

theorem exactly_eq_ok {size : Nat} {type : Native} {bytes : Bytes} {octets : Octets size} :
    exactly size type bytes = .ok octets ↔ bytes = octets.1 := by
  rw [exactly]
  constructor
  · intro h
    split at h
    · cases h
      rfl
    · cases h
  · rintro rfl
    rw [dif_pos octets.2]

theorem ofBytes?_eq_some {size : Nat} {bytes : Bytes} {octets : Octets size} :
    Octets.ofBytes? size bytes = some octets ↔ bytes = octets.1 := by
  rw [Octets.ofBytes?]
  constructor
  · intro h
    split at h
    · cases h
      rfl
    · cases h
  · rintro rfl
    rw [dif_pos octets.2]

/-- A value of fixed size that was read can be written again if all such values can. -/
theorem written_of_exactly {type : Native} {size : Nat} {g : Octets size → Value} {bytes : Bytes}
    {v : Value} (h : (do return g (← exactly size type bytes) : Except DecodeFault Value) = .ok v)
    (hg : ∀ octets : Octets size, ∃ written, encode type (g octets) = .ok written ∧
      (type.hasOneForm = true → written = octets.1)) :
    ∃ written, encode type v = .ok written ∧ (type.hasOneForm = true → written = bytes) := by
  obtain ⟨octets, hoctets, h⟩ := bind_eq_ok.mp h
  cases h
  obtain rfl := exactly_eq_ok.mp hoctets
  exact hg octets

/-- Every native value that was read can be written again, in the same bytes if it has one form
only. -/
theorem encode_of_decode {type : Native} {bytes : Bytes} {v : Value}
    (h : decode type bytes = .ok v) :
    ∃ written, encode type v = .ok written ∧ (type.hasOneForm = true → written = bytes) := by
  cases type with
  | tinyint => exact written_of_exactly h fun hread => ⟨_, rfl, fun _ => ofInt8_toInt8 hread.2⟩
  | smallint => exact written_of_exactly h fun hread => ⟨_, rfl, fun _ => ofInt16_toInt16 hread.2⟩
  | int => exact written_of_exactly h fun hread => ⟨_, rfl, fun _ => ofInt32_toInt32 hread.2⟩
  | bigint => exact written_of_exactly h fun hread => ⟨_, rfl, fun _ => ofInt64_toInt64 hread.2⟩
  | counter => exact written_of_exactly h fun hread => ⟨_, rfl, fun _ => ofInt64_toInt64 hread.2⟩
  | timestamp =>
    exact written_of_exactly h fun hread => ⟨_, rfl, fun _ => ofInt64_toInt64 hread.2⟩
  | float => exact written_of_exactly h fun hread => ⟨_, rfl, fun _ => ofUInt32_toUInt32 hread.2⟩
  | double => exact written_of_exactly h fun hread => ⟨_, rfl, fun _ => ofUInt64_toUInt64 hread.2⟩
  | date => exact written_of_exactly h fun hread => ⟨_, rfl, fun _ => ofUInt32_toUInt32 hread.2⟩
  | uuid => exact written_of_exactly h fun hread => ⟨_, rfl, fun _ => rfl⟩
  | timeuuid => exact written_of_exactly h fun hread => ⟨_, rfl, fun _ => rfl⟩
  | boolean => exact written_of_exactly h fun hread => ⟨_, rfl, fun hform => by cases hform⟩
  | time =>
    obtain ⟨octets, hoctets, hread⟩ := bind_eq_ok.mp h
    obtain rfl := exactly_eq_ok.mp hoctets
    dsimp only at hread
    split at hread
    · rename_i hday
      cases hread
      rw [encode, if_pos hday]
      exact ⟨_, rfl, fun _ => ofInt64_toInt64 octets.2⟩
    · cases hread
  | blob =>
    cases h
    exact ⟨_, rfl, fun _ => rfl⟩
  | text =>
    obtain ⟨s, hs, h⟩ := bind_eq_ok.mp h
    cases h
    exact ⟨_, rfl, fun _ => Utf8.encode_of_decode (mapError_eq_ok.mp hs)⟩
  | ascii =>
    rw [decode] at h
    split at h
    · rename_i hall
      obtain ⟨s, hs, h⟩ := bind_eq_ok.mp h
      cases h
      have hs := mapError_eq_ok.mp hs
      rw [encode, if_pos (Utf8.isAscii_of_decode hall hs)]
      exact ⟨_, rfl, fun _ => Utf8.encode_of_decode hs⟩
    · cases h
  | inet =>
    rw [decode] at h
    split at h
    · rename_i octets hfour
      cases h
      obtain rfl := ofBytes?_eq_some.mp hfour
      exact ⟨_, rfl, fun _ => rfl⟩
    · rename_i octets hsixteen
      cases h
      obtain rfl := ofBytes?_eq_some.mp hsixteen
      exact ⟨_, rfl, fun _ => rfl⟩
    · cases h
  | varint =>
    rw [decode] at h
    split at h
    · cases h
    · cases h
      exact ⟨_, rfl, fun hform => by cases hform⟩
  | decimal =>
    rw [decode] at h
    split at h
    · cases h
    · cases h
      exact ⟨_, rfl, fun hform => by cases hform⟩
  | duration =>
    obtain ⟨d, _, h⟩ := bind_eq_ok.mp h
    cases h
    exact ⟨_, rfl, fun hform => by cases hform⟩

theorem length_of_decode {type : Native} {size : Nat} (hsize : type.fixedSize = some size)
    {bytes : Bytes} {v : Value} (h : decode type bytes = .ok v) : bytes.length = size := by
  cases type with
  | ascii | blob | decimal | duration | text | varint | inet => cases hsize
  | _ =>
    obtain ⟨octets, hoctets, -⟩ := bind_eq_ok.mp h
    cases hsize
    rw [exactly_eq_ok.mp hoctets]
    exact octets.2

end Scalar

/-! ## Containers -/

section Containers

variable {decode decodeKey decodeValue : PartDecoder} {bytes : Bytes} {α : Type}

/-- Items behind their count use up their bytes, each its own part. -/
theorem parts_of_counted {item : Reader DecodeFault α} {P : Bytes → α → Prop}
    (hitem : Accepts item P) {what : String} {as : List α}
    (h : (do
      let n ← readCount
      let as ← Reader.times n item
      nothingLeft what
      return as).outcome bytes = .ok as) :
    as.length ≤ Wire.maxInt32 ∧ ∃ parts : List Bytes,
      bytes = Bytes.ofNat 4 as.length ++ parts.flatten ∧ as.length = parts.length ∧
        ∀ pair ∈ as.zip parts, P pair.2 pair.1 := by
  obtain ⟨rest, hread⟩ := Reader.outcome_eq_ok.mp h
  obtain ⟨n, body, hn, hbody⟩ := Reader.bind_eq_ok.mp hread
  obtain ⟨front, rfl, rfl, hmax⟩ := accepts_readCount _ _ _ hn
  obtain ⟨made, ⟨hlen, parts, rfl, hwidth, heach⟩, rfl⟩ :=
    all_of_nothingLeft (g := id) (hitem.times n) (Reader.outcome_eq_ok.mpr ⟨_, hbody⟩)
  subst hlen
  exact ⟨hmax, parts, rfl, hwidth, heach⟩

theorem accepts_entry : Accepts (do
      let k ← readElement decodeKey
      let v ← readElement decodeValue
      return (k, v)) fun front entry => ∃ keyPart valuePart,
        front = Wire.writeBytes keyPart ++ Wire.writeBytes valuePart ∧
          (keyPart.length ≤ Wire.maxInt32 ∧ decodeKey keyPart = .ok entry.1) ∧
            valuePart.length ≤ Wire.maxInt32 ∧ decodeValue valuePart = .ok entry.2 := by
  refine accepts_readElement.bind ?_
  rintro _ k ⟨keyPart, rfl, hk⟩
  refine accepts_readElement.map ?_
  rintro _ v ⟨valuePart, rfl, hv⟩
  exact ⟨keyPart, valuePart, rfl, hk, hv⟩

theorem parts_of_components {dimensions size : Nat} {vs : List Value}
    (h : (components dimensions (some size) decode).outcome bytes = .ok vs) :
    vs.length = dimensions ∧ ∃ parts : List Bytes,
      bytes = parts.flatten ∧ vs.length = parts.length ∧
        ∀ pair ∈ vs.zip parts, pair.2.length = size ∧ decode pair.2 = .ok pair.1 := by
  obtain ⟨made, ⟨hlen, parts, hbytes, hwidth, heach⟩, rfl⟩ :=
    all_of_nothingLeft (g := id) ((accepts_readBare size).times dimensions) h
  exact ⟨hlen, parts, hbytes, hwidth, heach⟩

/-- The parts in turn, all of them of the size, are what the components are made of. -/
theorem mapM_of_components {dimensions size : Nat} {vs : List Value}
    (h : (components dimensions (some size) decode).outcome bytes = .ok vs) :
    ∃ parts : List Bytes, bytes = parts.flatten ∧ parts.length = dimensions ∧
      (∀ part ∈ parts, part.length = size) ∧ parts.mapM decode = .ok vs := by
  obtain ⟨hlen, parts, hbytes, hwidth, heach⟩ := parts_of_components h
  refine ⟨parts, hbytes, hwidth.symm.trans hlen, fun part hpart => ?_, ?_⟩
  · rw [← List.map_snd_zip (Nat.le_of_eq hwidth.symm)] at hpart
    obtain ⟨pair, hpair, rfl⟩ := List.mem_map.mp hpart
    exact (heach pair hpair).1
  · refine mapM_eq_ok_of_zip hwidth.symm fun pair hpair => ?_
    rw [← List.zip_swap] at hpair
    obtain ⟨swapped, hswapped, rfl⟩ := List.mem_map.mp hpair
    exact (heach swapped hswapped).2

end Containers

end CqlClient
