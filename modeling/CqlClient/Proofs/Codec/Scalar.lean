import CqlClient.Codec.Scalar
import CqlClient.Proofs.Vint

/-!
# The codecs of native types

`Native.canon` renames a value to the kind that its type reads: an ascii text of a text type is a
text, a counter of a bigint type is a bigint, and so on. `Scalar.decode_of_encode` is the round
trip: what a native codec writes, it reads as the canonical form of the value.
-/

namespace CqlClient

/-- The value as the type itself names it; only kinds that share a form are renamed. -/
def Native.canon : Native → Value → Value
  | .ascii, .text s => .ascii s
  | .text, .ascii s => .text s
  | .bigint, .counter n => .bigint n
  | .counter, .bigint n => .counter n
  | .uuid, .timeuuid id => .uuid id
  | .timeuuid, .uuid id => .timeuuid id
  | _, v => v

/-! ## Texts -/

theorem Utf8.all_lt_of_isAscii {s : String} (h : Scalar.isAscii s = true) :
    (Utf8.encode s).all (· < 128) = true := by
  rw [Utf8.encode_eq_flatMap, List.all_flatMap, List.all_eq_true]
  intro c hc
  have hlt : c.val.toNat < 128 := of_decide_eq_true (List.all_eq_true.mp h c hc)
  have hsize : c.utf8Size = 1 := by
    rw [Char.utf8Size_eq_one_iff, UInt32.le_iff_toNat_le]
    exact Nat.le_of_lt_succ hlt
  have hbyte : c.val.toUInt8.toNat < 128 := by
    rw [UInt32.toNat_toUInt8, Nat.mod_eq_of_lt (by omega)]
    exact hlt
  rw [String.utf8EncodeChar_eq_singleton hsize, List.all_cons, List.all_nil, Bool.and_true]
  exact decide_eq_true (UInt8.lt_iff_toNat_lt.mpr hbyte)

namespace Scalar

theorem text_encode (s : String) : text (Utf8.encode s) = .ok s := by
  rw [text, Utf8.decode_encode]
  rfl

/-! ## Values of a fixed size -/

theorem exactly_of_length {size : Nat} {bytes : Bytes} (type : Native)
    (h : bytes.length = size) : exactly size type bytes = .ok ⟨bytes, h⟩ := by
  rw [exactly, dif_pos h]

/-- Making a value of bytes that are as many as the type takes. -/
theorem ofExactly {size : Nat} {type : Native} {bytes : Bytes} {α : Type} {g : Octets size → α}
    {a : α} (h : bytes.length = size) (ha : g ⟨bytes, h⟩ = a) :
    (do return g (← exactly size type bytes) : Except DecodeFault α) = .ok a := by
  rw [exactly_of_length type h, ← ha]
  rfl

theorem decode_time {n : Int64} (hday : isTimeOfDay n = true) :
    decode .time (Bytes.ofInt64 n) = .ok (.time n) := by
  have hlen : (Bytes.ofInt64 n).length = 8 := Bytes.length_ofNat 8 _
  simp only [decode, exactly_of_length _ hlen, bind, Except.bind, toInt64_ofInt64, hday, if_true]
  rfl

theorem decode_inet (address : IpAddress) :
    decode .inet address.bytes = .ok (.inet address) := by
  cases address with
  | v4 octets =>
    have h : Octets.ofBytes? 4 octets.1 = some octets := by rw [Octets.ofBytes?, dif_pos octets.2]
    simp only [decode, IpAddress.bytes, h]
    rfl
  | v6 octets =>
    have h4 : Octets.ofBytes? 4 octets.1 = none := by
      rw [Octets.ofBytes?, dif_neg (by rw [octets.2]; omega)]
    have h16 : Octets.ofBytes? 16 octets.1 = some octets := by
      rw [Octets.ofBytes?, dif_pos octets.2]
    simp only [decode, IpAddress.bytes, h4, h16]
    rfl

/-! ## Numbers of any size -/

theorem bytes_ne_nil (n : Varint) : n.bytes ≠ [] := by
  intro h
  have := n.shortest
  rw [h] at this
  exact this

theorem decode_varint (n : Varint) : decode .varint n.bytes = .ok (.varint n) := by
  have h : n.bytes.isEmpty = false := by simpa using bytes_ne_nil n
  simp only [decode, h, Varint.ofBytes_bytes]
  rfl

theorem decode_decimal (d : Decimal) :
    decode .decimal (Bytes.ofInt32 d.scale ++ d.unscaled.bytes) = .ok (.decimal d) := by
  have hscale : (Bytes.ofInt32 d.scale).length = 4 := Bytes.length_ofNat 4 _
  have hpos := List.length_pos_iff.mpr (bytes_ne_nil d.unscaled)
  have hlen : ¬ (Bytes.ofInt32 d.scale ++ d.unscaled.bytes).length < 5 := by
    rw [List.length_append, hscale]
    omega
  have htake : (Bytes.ofInt32 d.scale ++ d.unscaled.bytes).take 4 = Bytes.ofInt32 d.scale :=
    List.take_left' hscale
  have hdrop : (Bytes.ofInt32 d.scale ++ d.unscaled.bytes).drop 4 = d.unscaled.bytes :=
    List.drop_left' hscale
  rw [decode, if_neg hlen, htake, hdrop, toInt32_ofInt32, Varint.ofBytes_bytes]
  rfl

/-! ## Durations -/

theorem reads_wire {α : Type} {r : Wire.WireReader α} {front : Bytes} {a : α}
    (hr : Reads r front a) : Reads (wire r) front a := hr.mapError _

/-- A container that has used up its bytes. -/
theorem outcome_of_reads {α β : Type} {r : Reader DecodeFault α} {front : Bytes} {a : α}
    (what : String) (g : α → β) (hr : Reads r front a) :
    (do let a ← r; nothingLeft what; return g a : Reader DecodeFault β).outcome front =
      .ok (g a) := by
  have h := outcome_bind (f := fun a => do nothingLeft what; return g a) hr []
  rw [List.append_nil] at h
  rw [h]
  rfl

theorem narrow_toInt64 (n : Int32) : narrow n.toInt64 = pure n := by
  have hlo : ¬ n.toInt64.toInt < Int32.minValue.toInt := by
    rw [Int32.toInt_toInt64]
    exact Int.not_lt.mpr n.le_toInt
  have hhi : ¬ Int32.maxValue.toInt < n.toInt64.toInt := by
    rw [Int32.toInt_toInt64]
    exact Int.not_lt.mpr n.toInt_le
  rw [narrow, if_neg hlo, if_neg hhi, Int32.toInt32_toInt64]

theorem decode_duration (d : Duration) :
    decode .duration (Vint.write d.months.toInt64 ++ Vint.write d.days.toInt64 ++
      Vint.write d.nanoseconds) = .ok (.duration d) := by
  have h : duration.outcome (Vint.write d.months.toInt64 ++ Vint.write d.days.toInt64 ++
      Vint.write d.nanoseconds) = .ok d := by
    rw [duration, List.append_assoc, outcome_bind (reads_wire (Vint.reads_read _)),
      outcome_bind (reads_wire (Vint.reads_read _)), ← List.append_nil (Vint.write d.nanoseconds),
      outcome_bind (reads_wire (Vint.reads_read _)), narrow_toInt64, narrow_toInt64]
    rfl
  rw [decode, h]
  rfl

/-! ## All native types -/

/-- What a native codec writes, it reads as the canonical form of the value. -/
theorem decode_of_encode {type : Native} {v : Value} {bytes : Bytes}
    (h : encode type v = .ok bytes) : decode type bytes = .ok (type.canon v) := by
  cases type with
  | tinyint =>
    cases v <;> cases h
    exact ofExactly (Bytes.length_ofNat 1 _) (congrArg Value.tinyint (toInt8_ofInt8 _))
  | smallint =>
    cases v <;> cases h
    exact ofExactly (Bytes.length_ofNat 2 _) (congrArg Value.smallint (toInt16_ofInt16 _))
  | int =>
    cases v <;> cases h
    exact ofExactly (Bytes.length_ofNat 4 _) (congrArg Value.int (toInt32_ofInt32 _))
  | bigint =>
    cases v <;> cases h <;>
      exact ofExactly (Bytes.length_ofNat 8 _) (congrArg Value.bigint (toInt64_ofInt64 _))
  | counter =>
    cases v <;> cases h <;>
      exact ofExactly (Bytes.length_ofNat 8 _) (congrArg Value.counter (toInt64_ofInt64 _))
  | timestamp =>
    cases v <;> cases h
    exact ofExactly (Bytes.length_ofNat 8 _) (congrArg Value.timestamp (toInt64_ofInt64 _))
  | float =>
    cases v <;> cases h
    exact ofExactly (Bytes.length_ofNat 4 _) (congrArg Value.float (toUInt32_ofUInt32 _))
  | double =>
    cases v <;> cases h
    exact ofExactly (Bytes.length_ofNat 8 _) (congrArg Value.double (toUInt64_ofUInt64 _))
  | date =>
    cases v <;> cases h
    exact ofExactly (Bytes.length_ofNat 4 _) (congrArg Value.date (toUInt32_ofUInt32 _))
  | boolean =>
    cases v <;> cases h
    rename_i b
    cases b <;> rfl
  | uuid =>
    cases v <;> cases h <;> rename_i id <;> exact ofExactly id.2 rfl
  | timeuuid =>
    cases v <;> cases h <;> rename_i id <;> exact ofExactly id.2 rfl
  | blob =>
    cases v <;> cases h
    rfl
  | text =>
    cases v <;> cases h <;> rw [decode, text_encode] <;> rfl
  | ascii =>
    cases v <;> try cases h
    all_goals
      simp only [encode] at h
      split at h <;> cases h
      rename_i hascii
      rw [decode, if_pos (Utf8.all_lt_of_isAscii hascii), text_encode]
      rfl
  | time =>
    cases v <;> try cases h
    simp only [encode] at h
    split at h <;> cases h
    exact decode_time ‹_›
  | inet =>
    cases v <;> cases h
    exact decode_inet _
  | varint =>
    cases v <;> cases h
    exact decode_varint _
  | decimal =>
    cases v <;> cases h
    exact decode_decimal _
  | duration =>
    cases v <;> cases h
    exact decode_duration _

end Scalar

end CqlClient
