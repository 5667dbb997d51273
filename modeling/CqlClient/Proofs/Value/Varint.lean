import CqlClient.Proofs.Fronts
import CqlClient.Value.Varint
import Mathlib.Tactic.Linarith
import Mathlib.Tactic.Ring

/-!
# The shortest bytes of an integer

Bytes write an integer in two's complement, and many byte strings write the same one. Proved here:

* `Bytes.toInt_cons`, `Bytes.toInt_bounds`, `Bytes.eq_of_toInt`: the first byte counts with its sign
  and the others without, so that bytes of one length write different integers of a range;
* `toInt_of_redundant`, `outside_of_not_redundant`: a first byte that repeats the sign changes
  nothing, and any other one writes an integer that fewer bytes cannot write;
* `Varint.toInt_ofBytes`, `eq_or_longer_of_shortest`: dropping redundant bytes keeps the integer and
  ends at the only shortest bytes of it;
* `Varint.toInt64?_eq_fill`: integers of 64 bits, by the sign that fills a word;
* `Varint.ofBytes_normalizes`: all of that.
-/

namespace CqlClient

namespace Bytes

/-- The bytes write the integer in two's complement. A sign takes a bit, so there is a byte at
least. -/
def Writes (bytes : Bytes) (n : Int) : Prop := bytes ≠ [] ∧ bytes.toInt = n

/-! ## What a byte string writes -/

theorem toNat_cons (b : UInt8) (bytes : Bytes) :
    toNat (b :: bytes) = b.toNat * 256 ^ bytes.length + toNat bytes := by
  induction bytes using List.reverseRecOn with
  | nil => simp [toNat]
  | append_singleton bytes last ih =>
    rw [← List.cons_append, toNat_append_singleton, ih, toNat_append_singleton, List.length_append,
      List.length_singleton, Nat.pow_succ]
    ring

/-- A byte from 128 on is negative as the first one. -/
theorem toInt_toInt8 (b : UInt8) :
    b.toInt8.toInt = if 128 ≤ b.toNat then (b.toNat : Int) - 256 else b.toNat := by
  have hcond : b.toInt8.toInt =
      if 2 * b.toNat < 2 ^ 8 then (b.toNat : Int) else b.toNat - (2 ^ 8 : Nat) :=
    BitVec.toInt_eq_toNat_cond b.toBitVec
  rw [hcond]
  split <;> split <;> omega

/-- The first byte counts with its sign, the others without. -/
theorem toInt_cons (b : UInt8) (bytes : Bytes) :
    toInt (b :: bytes) = b.toInt8.toInt * 256 ^ bytes.length + bytes.toNat := by
  have hsign : (128 ≤ b) ↔ 128 ≤ b.toNat := UInt8.le_iff_toNat_le
  rw [toInt, toInt_toInt8, isNegative, toNat_cons, List.length_cons]
  simp only [decide_eq_true_eq, hsign]
  split
  · push_cast
    ring
  · push_cast
    ring

theorem toInt_bounds {bytes : Bytes} {n : Nat} (h : bytes.length = n + 1) :
    -128 * 256 ^ n ≤ bytes.toInt ∧ bytes.toInt < 128 * 256 ^ n := by
  obtain ⟨b, rest, rfl⟩ := List.exists_cons_of_length_eq_add_one h
  obtain rfl : rest.length = n := Nat.succ.inj h
  have hlow : ((toNat rest : Nat) : Int) < 256 ^ rest.length := by exact_mod_cast toNat_lt rest
  have hpos : (0 : Int) < 256 ^ rest.length := by positivity
  have hge : -128 ≤ b.toInt8.toInt := b.toInt8.le_toInt
  have hlt : b.toInt8.toInt ≤ 127 := Int.le_of_lt_add_one b.toInt8.toInt_lt
  have hleast := mul_le_mul_of_nonneg_right hge hpos.le
  have hmost := mul_le_mul_of_nonneg_right hlt hpos.le
  rw [toInt_cons]
  constructor <;> linarith

/-- The integer and the number without a sign agree up to multiples of what the width can hold. -/
theorem toInt_emod (bytes : Bytes) : bytes.toInt % 256 ^ bytes.length = bytes.toNat := by
  have hlt : (bytes.toNat : Int) < 256 ^ bytes.length := by exact_mod_cast toNat_lt bytes
  have hself := Int.emod_eq_of_lt (Int.natCast_nonneg bytes.toNat) hlt
  rw [toInt]
  split
  · rw [Int.sub_emod_right, hself]
  · exact hself

theorem eq_of_toInt {bytes other : Bytes} (hlen : bytes.length = other.length)
    (h : bytes.toInt = other.toInt) : bytes = other := by
  have hnat : bytes.toNat = other.toNat := by
    have hmod := toInt_emod bytes
    rw [h, hlen, toInt_emod other] at hmod
    exact_mod_cast hmod.symm
  rw [← ofNat_toNat bytes, ← ofNat_toNat other, hlen, hnat]

theorem toInt_ofInt64 (n : Int64) : (ofInt64 n).toInt = n.toInt := by
  have hlen : (ofInt64 n).length = 8 := length_ofNat 8 _
  obtain ⟨hlow, hhigh⟩ := toInt_bounds hlen
  have hge := n.le_toInt
  have hlt := n.toInt_lt
  have hnat : (ofInt64 n).toNat = n.toUInt64.toNat := toNat_ofNat_of_lt n.toUInt64.toNat_lt
  have hmod := toInt_emod (ofInt64 n)
  have hword : n.toInt = if 2 * n.toUInt64.toNat < 2 ^ 64 then (n.toUInt64.toNat : Int)
      else n.toUInt64.toNat - (2 ^ 64 : Nat) := BitVec.toInt_eq_toNat_cond n.toBitVec
  rw [hlen, hnat] at hmod
  norm_num at hmod hlow hhigh hge hlt
  split at hword <;> omega

end Bytes

/-! ## Redundant bytes -/

section Redundant

variable {a b : UInt8} {rest : Bytes}

/-- A first byte is redundant if all its bits are the sign of the second one. -/
theorem isRedundantSign_iff : isRedundantSign a b = true ↔
    (a.toInt8.toInt = 0 ∧ 0 ≤ b.toInt8.toInt) ∨ (a.toInt8.toInt = -1 ∧ b.toInt8.toInt < 0) := by
  have hfirst := Bytes.toInt_toInt8 a
  have hsecond := Bytes.toInt_toInt8 b
  have ha := a.toNat_lt
  have hb := b.toNat_lt
  have hzero : a = 0 ↔ a.toNat = 0 := UInt8.toNat_inj.symm
  have hones : a = 0xFF ↔ a.toNat = 255 := UInt8.toNat_inj.symm
  have hneg : 128 ≤ b ↔ 128 ≤ b.toNat := UInt8.le_iff_toNat_le
  have hpos : b < 128 ↔ b.toNat < 128 := UInt8.lt_iff_toNat_lt
  simp only [isRedundantSign, Bool.or_eq_true, Bool.and_eq_true, beq_iff_eq, decide_eq_true_eq,
    hzero, hones, hneg, hpos]
  split at hfirst <;> split at hsecond <;> omega

theorem toInt_of_redundant (h : isRedundantSign a b = true) :
    Bytes.toInt (a :: b :: rest) = Bytes.toInt (b :: rest) := by
  have hsecond := Bytes.toInt_toInt8 b
  have hb := b.toNat_lt
  rw [Bytes.toInt_cons, Bytes.toInt_cons, Bytes.toNat_cons, List.length_cons]
  push_cast
  rcases isRedundantSign_iff.mp h with ⟨ha, hpos⟩ | ⟨ha, hneg⟩
  · have hsame : b.toInt8.toInt = b.toNat := by split at hsecond <;> omega
    rw [ha, hsame]
    ring
  · have hsame : b.toInt8.toInt = b.toNat - 256 := by split at hsecond <;> omega
    rw [ha, hsame]
    ring

/-- An integer with a first byte that is not redundant is out of reach for fewer bytes. -/
theorem outside_of_not_redundant (h : isRedundantSign a b = false) :
    Bytes.toInt (a :: b :: rest) < -128 * 256 ^ rest.length ∨
      128 * 256 ^ rest.length ≤ Bytes.toInt (a :: b :: rest) := by
  have hnot : ¬ _ := fun hred => Bool.false_ne_true (h.symm.trans (isRedundantSign_iff.mpr hred))
  have hsecond := Bytes.toInt_toInt8 b
  have hb := b.toNat_lt
  have hlow : ((Bytes.toNat rest : Nat) : Int) < 256 ^ rest.length := by
    exact_mod_cast toNat_lt rest
  have hpos : (0 : Int) < 256 ^ rest.length := by positivity
  have hvalue : Bytes.toInt (a :: b :: rest) =
      (a.toInt8.toInt * 256 + b.toNat) * 256 ^ rest.length + Bytes.toNat rest := by
    rw [Bytes.toInt_cons, Bytes.toNat_cons, List.length_cons]
    push_cast
    ring
  have hfront : a.toInt8.toInt * 256 + b.toNat ≤ -129 ∨ 128 ≤ a.toInt8.toInt * 256 + b.toNat := by
    split at hsecond <;> omega
  rw [hvalue]
  rcases hfront with hfront | hfront
  · have hmost := mul_le_mul_of_nonneg_right hfront hpos.le
    left
    linarith
  · have hleast := mul_le_mul_of_nonneg_right hfront hpos.le
    right
    linarith

end Redundant

theorem toInt_dropRedundantSigns (bytes : Bytes) :
    (dropRedundantSigns bytes).toInt = bytes.toInt := by
  fun_induction dropRedundantSigns bytes with
  | case1 => rfl
  | case2 => rfl
  | case3 a b rest h ih => rw [ih, toInt_of_redundant h]
  | case4 => rfl

/-! ## The shortest bytes -/

theorem ne_nil_of_shortest {bytes : Bytes} (h : IsShortest bytes) : bytes ≠ [] := by
  rintro rfl
  exact h

/-- Two bytes or more, if they are the shortest, write an integer that one byte less cannot. -/
theorem outside_of_shortest {bytes : Bytes} {n : Nat} (h : IsShortest bytes)
    (hlen : bytes.length = n + 2) :
    bytes.toInt < -128 * 256 ^ n ∨ 128 * 256 ^ n ≤ bytes.toInt := by
  obtain ⟨a, tail, rfl⟩ := List.exists_cons_of_length_eq_add_one hlen
  obtain ⟨b, rest, rfl⟩ := List.exists_cons_of_length_eq_add_one (Nat.succ.inj hlen)
  obtain rfl : rest.length = n := Nat.succ.inj (Nat.succ.inj hlen)
  exact outside_of_not_redundant h

/-- What one width reaches a larger one reaches too. -/
theorem length_le_of_shortest {bytes : Bytes} {n : Nat} (h : IsShortest bytes)
    (hleast : -128 * 256 ^ n ≤ bytes.toInt) (hmost : bytes.toInt < 128 * 256 ^ n) :
    bytes.length ≤ n + 1 := by
  by_contra hlong
  obtain ⟨m, hm⟩ : ∃ m, bytes.length = n + m + 2 := ⟨bytes.length - (n + 2), by omega⟩
  have hpow : (256 : Int) ^ n ≤ 256 ^ (n + m) := pow_le_pow_right₀ (by norm_num) (by omega)
  rcases outside_of_shortest h hm with hout | hout <;> linarith

theorem eq_or_longer_of_shortest {bytes other : Bytes} (h : IsShortest bytes) (hne : other ≠ [])
    (hsame : other.toInt = bytes.toInt) : other = bytes ∨ bytes.length < other.length := by
  obtain ⟨n, hn⟩ : ∃ n, other.length = n + 1 :=
    Nat.exists_eq_add_one.mpr (List.length_pos_iff.mpr hne)
  obtain ⟨hleast, hmost⟩ := Bytes.toInt_bounds hn
  rw [hsame] at hleast hmost
  have hle : bytes.length ≤ other.length := hn ▸ length_le_of_shortest h hleast hmost
  rcases Nat.eq_or_lt_of_le hle with hlen | hlt
  · exact .inl (Bytes.eq_of_toInt hlen.symm hsame)
  · exact .inr hlt

namespace Varint

theorem toInt_ofBytes (bytes : Bytes) : (ofBytes bytes).toInt = bytes.toInt :=
  toInt_dropRedundantSigns bytes

theorem toInt_inj {m n : Varint} : m.toInt = n.toInt ↔ m = n := by
  refine ⟨fun h => ?_, fun h => h ▸ rfl⟩
  have hbytes : m.bytes = n.bytes := by
    rcases eq_or_longer_of_shortest n.shortest (ne_nil_of_shortest m.shortest) h with heq | hn
    · exact heq
    · have hne := ne_nil_of_shortest n.shortest
      rcases eq_or_longer_of_shortest m.shortest hne h.symm with heq | hm
      · exact heq.symm
      · exact absurd hm (Nat.lt_asymm hn)
  cases m
  cases n
  cases hbytes
  rfl

theorem length_le_eight_iff (n : Varint) :
    n.bytes.length ≤ 8 ↔ -2 ^ 63 ≤ n.toInt ∧ n.toInt < 2 ^ 63 := by
  constructor
  · intro hle
    obtain ⟨k, hk⟩ : ∃ k, n.bytes.length = k + 1 :=
      Nat.exists_eq_add_one.mpr (List.length_pos_iff.mpr (ne_nil_of_shortest n.shortest))
    obtain ⟨hleast, hmost⟩ := Bytes.toInt_bounds hk
    have hpow : (256 : Int) ^ k ≤ 256 ^ 7 := pow_le_pow_right₀ (by norm_num) (by omega)
    rw [toInt]
    constructor <;> linarith
  · rintro ⟨hleast, hmost⟩
    exact length_le_of_shortest n.shortest (by rw [toInt] at hleast; linarith)
      (by rw [toInt] at hmost; linarith)

theorem toInt64?_eq_some (n : Varint) (word : Int64) :
    n.toInt64? = some word ↔ n.toInt = word.toInt := by
  have hgood := length_le_eight_iff n
  rw [toInt64?]
  by_cases hlen : n.bytes.length ≤ 8
  · obtain ⟨hleast, hmost⟩ := hgood.mp hlen
    have hself := Int64.toInt_ofInt_of_le hleast hmost
    rw [if_pos hlen, Option.some.injEq, ← Int64.toInt_inj, hself]
  · rw [if_neg hlen]
    refine iff_of_false (Option.some_ne_none word).symm fun h => hlen (hgood.mpr ?_)
    rw [h]
    exact ⟨word.le_toInt, word.toInt_lt⟩

/-- The byte that stands before others and leaves the integer that they write as it is. -/
def signByte (bytes : Bytes) : UInt8 := if bytes.isNegative then 0xFF else 0x00

/-- The sign of bytes, as often as it takes to fill a width, changes nothing. -/
theorem toInt_fill (b : UInt8) (rest : Bytes) (k : Nat) :
    Bytes.toInt (List.replicate k (signByte (b :: rest)) ++ b :: rest) =
      Bytes.toInt (b :: rest) := by
  generalize hfill : signByte (b :: rest) = fill
  have hfirst : isRedundantSign fill b = true ∧ isRedundantSign fill fill = true := by
    subst hfill
    rw [signByte]
    split
    next hneg => exact ⟨by simpa [isRedundantSign, Bytes.isNegative] using hneg, rfl⟩
    next hpos => exact ⟨by simpa [isRedundantSign, Bytes.isNegative] using hpos, rfl⟩
  induction k with
  | zero => rfl
  | succ k ih =>
    cases k with
    | zero => exact toInt_of_redundant hfirst.1
    | succ k => exact (toInt_of_redundant hfirst.2).trans ih

/-- An integer of up to 8 bytes is given as a word by filling that many bytes with its sign. -/
theorem toInt64?_eq_fill (n : Varint) : n.toInt64? =
    if n.bytes.length ≤ 8 then
      some (Bytes.toInt64
        (List.replicate (8 - n.bytes.length) (signByte n.bytes) ++ n.bytes))
    else none := by
  rw [toInt64?]
  split
  next hlen =>
    obtain ⟨hleast, hmost⟩ := (length_le_eight_iff n).mp hlen
    let filled := List.replicate (8 - n.bytes.length) (signByte n.bytes) ++ n.bytes
    have hfilled : Bytes.toInt filled = n.toInt := by
      obtain ⟨b, rest, hbytes⟩ := List.exists_cons_of_ne_nil (ne_nil_of_shortest n.shortest)
      rw [toInt, hbytes, ← toInt_fill b rest (8 - n.bytes.length), ← hbytes]
    have hword : filled = Bytes.ofInt64 (Int64.ofInt n.toInt) := by
      refine Bytes.eq_of_toInt ?_ ?_
      · rw [Bytes.ofInt64, Bytes.length_ofNat, List.length_append, List.length_replicate]
        omega
      · rw [Bytes.toInt_ofInt64, Int64.toInt_ofInt_of_le hleast hmost, hfilled]
    rw [Option.some.injEq]
    show _ = Bytes.toInt64 filled
    rw [hword, toInt64_ofInt64]
  next => rfl

/-- Integers are held as the only shortest bytes that write them, whatever bytes they come from; no
byte at all stands for zero. So equal integers are held alike, a word of 64 bits is held as itself,
and an integer is given back as a word if it is one. -/
theorem ofBytes_normalizes (bytes : Bytes) :
    ((ofBytes bytes).bytes.Writes bytes.toInt ∧
        ∀ other : Bytes, other.Writes bytes.toInt →
          other = (ofBytes bytes).bytes ∨ (ofBytes bytes).bytes.length < other.length) ∧
      Bytes.toInt [] = 0 ∧
      ofBytes (ofBytes bytes).bytes = ofBytes bytes ∧
      (∀ other, ofBytes bytes = ofBytes other ↔ bytes.toInt = other.toInt) ∧
      (∀ word : Int64, (ofInt64 word).toInt = word.toInt) ∧
      ∀ n : Varint, (n.toInt64?.isSome ↔ -2 ^ 63 ≤ n.toInt ∧ n.toInt < 2 ^ 63) ∧
        ∀ word, n.toInt64? = some word ↔ n.toInt = word.toInt := by
  refine ⟨⟨⟨?_, toInt_ofBytes bytes⟩, ?_⟩, rfl, ofBytes_bytes _, ?_, ?_, ?_⟩
  · exact ne_nil_of_shortest (ofBytes bytes).shortest
  · rintro other ⟨hne, hother⟩
    exact eq_or_longer_of_shortest (ofBytes bytes).shortest hne
      (hother.trans (toInt_ofBytes bytes).symm)
  · intro other
    rw [← toInt_inj, toInt_ofBytes, toInt_ofBytes]
  · intro word
    rw [ofInt64, toInt_ofBytes, Bytes.toInt_ofInt64]
  · intro n
    refine ⟨?_, toInt64?_eq_some n⟩
    rw [← length_le_eight_iff, toInt64?]
    split
    · rename_i hlen
      exact iff_of_true rfl hlen
    · rename_i hlen
      exact iff_of_false Bool.false_ne_true hlen

end Varint

end CqlClient
