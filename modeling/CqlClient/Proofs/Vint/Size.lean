import CqlClient.Proofs.Fronts
import CqlClient.Proofs.Vint
import Mathlib.Order.Bounds.Basic

/-!
# How many bytes integers of variable length take

Seven bits a byte, and eight in the ninth one. Proved here:

* `Vint.lt_size_iff`: a number takes more than `k` bytes if it does not fit `7 * k` bits;
* `Vint.size_eq_of_clz`: the size is one multiplication away from the number of leading zeros;
* `Vint.startsWithOnes_leadingOnes`, `Vint.low_lt_of_leadingOnes`: what the first byte says of the
  bytes that follow it, and what it holds of the number;
* `Vint.readUnsigned_cases`: what comes of reading any bytes;
* `Vint.coded_by_size`: numbers written and read.
-/

namespace CqlClient.Vint

/-! ## Sizes -/

theorem le_extraBytes_iff {n k : Nat} (hpos : 0 < k) (hle : k ≤ 8) :
    k ≤ extraBytes n ↔ 2 ^ (7 * k) ≤ n := by
  have hbits : k ≤ extraBytes n ↔ 7 * k ≤ n.log2 := by
    simp only [extraBytes]
    omega
  rw [hbits]
  by_cases hn : n = 0
  · subst hn
    have hpow : 0 < 2 ^ (7 * k) := Nat.two_pow_pos _
    have hlog : Nat.log2 0 = 0 := by decide
    omega
  · exact Nat.le_log2 hn

theorem lt_size_iff {n k : Nat} (hpos : 0 < k) (hle : k ≤ 8) : k < size n ↔ 2 ^ (7 * k) ≤ n := by
  rw [size, Nat.lt_succ_iff, le_extraBytes_iff hpos hle]

theorem size_pos (n : Nat) : 0 < size n := Nat.succ_pos _

theorem size_le_nine (n : Nat) : size n ≤ 9 := Nat.succ_le_succ (Nat.min_le_right _ _)

theorem size_mono {m n : Nat} (h : m ≤ n) : size m ≤ size n := by
  by_contra hlt
  have hpos := size_pos n
  have hnine := size_le_nine m
  have hm := (lt_size_iff (n := m) hpos (by omega)).mp (by omega)
  exact absurd ((lt_size_iff hpos (by omega)).mpr (hm.trans h)) (Nat.lt_irrefl _)

/-- Numbers of up to 56 bits take as many bytes as hold their bits, seven each. -/
theorem isLeast_size {n : Nat} (h : n < 2 ^ 56) :
    IsLeast {k | 1 ≤ k ∧ n < 2 ^ (7 * k)} (size n) := by
  have height : size n ≤ 8 :=
    Nat.not_lt.mp fun hlt => absurd ((lt_size_iff (by omega) (Nat.le_refl 8)).mp hlt) (by omega)
  refine ⟨⟨size_pos n, ?_⟩, ?_⟩
  · exact Nat.not_le.mp fun hle =>
      absurd ((lt_size_iff (size_pos n) height).mpr hle) (Nat.lt_irrefl _)
  · rintro k ⟨hpos, hk⟩
    by_contra hlt
    exact absurd ((lt_size_iff hpos (by omega)).mp (by omega)) (Nat.not_le.mpr hk)

theorem size_eq_nine {n : Nat} (h : 2 ^ 56 ≤ n) : size n = 9 :=
  Nat.le_antisymm (size_le_nine n) ((lt_size_iff (by omega) (Nat.le_refl 8)).mpr h)

/-- The size by the leading zeros of the word, which a zero word is made of. -/
theorem size_eq_of_clz (v : UInt64) :
    size v.toNat = max 1 ((639 - 9 * v.toBitVec.clz.toNat) >>> 6) := by
  rw [Nat.shiftRight_eq_div_pow]
  by_cases hv : v.toBitVec = 0#64
  · have hzero : v = 0 := UInt64.toBitVec_inj.mp hv
    subst hzero
    decide
  · have hlow := BitVec.two_pow_sub_clz_le_toNat_of_ne_zero (by omega : 0 < 64) hv
    have hhigh := BitVec.toNat_lt_two_pow_sub_clz (x := v.toBitVec)
    have hclz : v.toBitVec.clz.toNat < 64 := by
      have hlt := BitVec.lt_def.mp (BitVec.clz_lt_iff_ne_zero.mpr hv)
      simpa using hlt
    generalize v.toBitVec.clz.toNat = zeros at hlow hhigh hclz
    have hpos : v.toNat ≠ 0 := (Nat.lt_of_lt_of_le (Nat.two_pow_pos _) hlow).ne'
    have hlog : v.toNat.log2 = 63 - zeros := by
      rw [Nat.log2_eq_iff hpos, show 63 - zeros + 1 = 64 - zeros by omega]
      exact ⟨hlow, hhigh⟩
    rw [size, extraBytes, hlog]
    omega

/-- Numbers closer to zero never take more bytes than others. -/
theorem length_write_le {m n : Int64} (h : m.toInt.natAbs < n.toInt.natAbs) :
    (write m).length ≤ (write n).length := by
  rw [write, write, length_writeUnsigned, length_writeUnsigned]
  refine size_mono ?_
  rw [toNat_zigzag, toNat_zigzag]
  split <;> split <;> omega

/-! ## First bytes -/

/-- The byte starts with `n` ones, and with no more of them. -/
structure StartsWithOnes (b : UInt8) (n : Nat) : Prop where
  le : n ≤ 8
  ones : ∀ i < n, b.toNat.testBit (7 - i) = true
  zero : n < 8 → b.toNat.testBit (7 - n) = false

theorem StartsWithOnes.unique {b : UInt8} {m n : Nat} (hm : StartsWithOnes b m)
    (hn : StartsWithOnes b n) : m = n := by
  rcases Nat.lt_trichotomy m n with hlt | heq | hlt
  · exact absurd ((hm.zero (by have := hn.le; omega)).symm.trans (hn.ones m hlt)) (by decide)
  · exact heq
  · exact absurd ((hn.zero (by have := hm.le; omega)).symm.trans (hm.ones n hlt)) (by decide)

/-- A byte that is not full lacks some bit, and the highest one that it lacks ends its ones. -/
theorem leadingOnes_cases (b : UInt8) : (b = 0xFF ∧ leadingOnes b = 8) ∨
    ∃ l ≤ 7, leadingOnes b = 7 - l ∧ 2 ^ l ≤ 255 - b.toNat ∧ 255 - b.toNat < 2 ^ (l + 1) := by
  have hb := b.toNat_lt
  by_cases hfull : b = 0xFF
  · exact .inl ⟨hfull, if_pos hfull⟩
  · have hpos : 255 - b.toNat ≠ 0 := by
      have hnat : b.toNat ≠ 255 := fun h => hfull (UInt8.toNat_inj.mp h)
      omega
    have hlog := (Nat.log2_eq_iff hpos).mp rfl
    have hle : (255 - b.toNat).log2 < 8 := (Nat.log2_lt hpos).mpr (by omega)
    exact .inr ⟨_, Nat.le_of_lt_succ hle, if_neg hfull, hlog⟩

theorem startsWithOnes_leadingOnes (b : UInt8) : StartsWithOnes b (leadingOnes b) := by
  have hbit (i : Nat) (hi : i < 8) : b.toNat.testBit i = !(255 - b.toNat).testBit i := by
    have hnot := Nat.testBit_two_pow_sub_succ b.toNat_lt i
    rw [show 2 ^ 8 - (b.toNat + 1) = 255 - b.toNat by omega, decide_eq_true hi,
      Bool.true_and] at hnot
    rw [hnot, Bool.not_not]
  rcases leadingOnes_cases b with ⟨rfl, hones⟩ | ⟨l, hl, hones, hle, hlt⟩
  · rw [hones]
    refine ⟨Nat.le_refl 8, fun i hi => ?_, fun hlt => absurd hlt (Nat.lt_irrefl 8)⟩
    rw [hbit _ (by omega)]
    exact congrArg (!·) (Nat.zero_testBit _)
  · rw [hones]
    refine ⟨by omega, fun i hi => ?_, fun _ => ?_⟩
    · have hhigh := Nat.testBit_lt_two_pow
        (Nat.lt_of_lt_of_le hlt (Nat.pow_le_pow_right (by omega) (show l + 1 ≤ 7 - i by omega)))
      rw [hbit _ (by omega), hhigh, Bool.not_false]
    · have hlog : (255 - b.toNat).log2 = l :=
        (Nat.log2_eq_iff (Nat.lt_of_lt_of_le (Nat.two_pow_pos l) hle).ne').mpr ⟨hle, hlt⟩
      have hset := Nat.testBit_log2 (Nat.lt_of_lt_of_le (Nat.two_pow_pos l) hle).ne'
      rw [show 7 - (7 - l) = l by omega, hbit _ (by omega), ← hlog, hset, Bool.not_true]

/-- What a byte holds behind its ones and the zero that ends them. -/
theorem low_lt_of_leadingOnes {b : UInt8} (h : leadingOnes b < 8) :
    b.toNat % 2 ^ (8 - leadingOnes b) < 2 ^ (7 - leadingOnes b) := by
  have hb := b.toNat_lt
  rcases leadingOnes_cases b with ⟨rfl, hones⟩ | ⟨l, hl, hones, hle, hlt⟩
  · omega
  · rw [hones, show 8 - (7 - l) = l + 1 by omega, show 7 - (7 - l) = l by omega]
    have hpow : 2 ^ (l + 1) = 2 * 2 ^ l := Nat.pow_succ'
    have hwhole : 2 ^ (l + 1) ≤ 2 ^ 8 := Nat.pow_le_pow_right (by omega) (by omega)
    obtain ⟨top, htop, hsplit⟩ : ∃ top < 2 ^ l, b.toNat = 256 - 2 ^ (l + 1) + top :=
      ⟨2 ^ (l + 1) - 1 - (255 - b.toNat), by omega, by omega⟩
    have hmod : (256 - 2 ^ (8 - (7 - l)) + top) % 2 ^ (8 - (7 - l)) = top :=
      top_of_first (by omega) (by rwa [show 7 - (7 - l) = l by omega])
    rw [show 8 - (7 - l) = l + 1 by omega, ← hsplit] at hmod
    rwa [hmod]

/-! ## Readings of any bytes -/

/-- A number that is read takes no more bytes than it was read from. -/
theorem size_le_of_first {first : UInt8} {low : Bytes} (h : low.length = leadingOnes first) :
    size (first.toNat % 2 ^ (8 - leadingOnes first) * 256 ^ leadingOnes first + low.toNat) ≤
      1 + low.length := by
  have hlow := toNat_lt low
  rw [h] at hlow ⊢
  obtain ⟨k, hk⟩ : ∃ k, leadingOnes first = k := ⟨_, rfl⟩
  rcases Nat.lt_or_eq_of_le (startsWithOnes_leadingOnes first).le with hlt | heq
  · have htop := low_lt_of_leadingOnes hlt
    rw [hk] at hlow hlt htop ⊢
    have hpow : 2 ^ (7 * (k + 1)) = 2 ^ (7 - k) * 256 ^ k := by
      rw [show (256 : Nat) ^ k = 2 ^ (8 * k) by rw [Nat.pow_mul], ← Nat.pow_add]
      congr 1
      omega
    have hnumber : first.toNat % 2 ^ (8 - k) * 256 ^ k + low.toNat < 2 ^ (7 * (k + 1)) := by
      rw [hpow]
      exact Nat.lt_of_lt_of_le (Nat.add_lt_add_left hlow _)
        (Nat.succ_mul _ _ ▸ Nat.mul_le_mul_right _ htop)
    rw [Nat.add_comm 1 k]
    exact Nat.not_lt.mp fun hlong =>
      absurd ((lt_size_iff (Nat.succ_pos k) hlt).mp hlong) (Nat.not_le.mpr hnumber)
  · rw [heq]
    exact size_le_nine _

/-- Bytes that a number is read from: one that says by its ones how many follow, and those. -/
theorem readUnsigned_cases (bytes : Bytes) :
    (∃ left, readUnsigned bytes = .error .endOfInput left ∧
      ∀ first low, bytes = first :: low → ∀ n, StartsWithOnes first n → low.length < n) ∨
    ∃ first low rest v, bytes = first :: low ++ rest ∧ StartsWithOnes first low.length ∧
      readUnsigned bytes = .ok v rest ∧ (writeUnsigned v).length ≤ 1 + low.length := by
  cases bytes with
  | nil => exact .inl ⟨[], rfl, fun first low h => by cases h⟩
  | cons first tail =>
    have hones := startsWithOnes_leadingOnes first
    rcases Nat.lt_or_ge tail.length (leadingOnes first) with hshort | hlong
    · refine .inl ⟨tail, ?_, ?_⟩
      · exact (bind_of_ok (reads_uint8 first tail)).trans (bind_of_error (raw_of_short hshort))
      · rintro _ _ ⟨⟩ n hn
        rwa [hn.unique hones]
    · have hlen : (tail.take (leadingOnes first)).length = leadingOnes first :=
        List.length_take_of_le hlong
      have hread := reads_of_first first _ hlen (tail.drop (leadingOnes first))
      have hsplit : first :: tail =
          first :: tail.take (leadingOnes first) ++ tail.drop (leadingOnes first) := by
        rw [List.cons_append, List.take_append_drop]
      refine .inr ⟨first, _, _, _, hsplit, hlen.symm ▸ hones, hsplit ▸ hread, ?_⟩
      rw [length_writeUnsigned, UInt64.toNat_ofNat']
      exact (size_mono (Nat.mod_le _ _)).trans (size_le_of_first hlen)

theorem accepts_readUnsigned : Accepts readUnsigned fun front _ => 0 < front.length := by
  intro bytes v rest hread
  rcases readUnsigned_cases bytes with ⟨left, hleft, -⟩ | ⟨first, low, rest', v', hsplit, -, hok, -⟩
  · cases hleft.symm.trans hread
  · cases hok.symm.trans hread
    exact ⟨first :: low, hsplit, Nat.succ_pos _⟩

/-! ## Written and read -/

/-- Numbers are read back from what is written, whatever follows. Unsigned ones are written in the
fewest bytes that hold them with seven bits each, or in nine from 57 bits on, and signed ones in no
more bytes than those farther from zero. Reading any bytes fails only where some are missing;
otherwise it takes as many as the first one says, which is as many as the number needs or more. -/
theorem coded_by_size :
    (∀ (v : UInt64) (rest : Bytes), readUnsigned (writeUnsigned v ++ rest) = .ok v rest) ∧
    (∀ v : UInt64,
      (v.toNat < 2 ^ 56 →
        IsLeast {n | 1 ≤ n ∧ v.toNat < 2 ^ (7 * n)} (writeUnsigned v).length) ∧
      (2 ^ 56 ≤ v.toNat → (writeUnsigned v).length = 9) ∧
      (writeUnsigned v).length = max 1 ((639 - 9 * v.toBitVec.clz.toNat) >>> 6)) ∧
    (∀ (n : Int64) (rest : Bytes), read (write n ++ rest) = .ok n rest) ∧
    (∀ m n : Int64, m.toInt.natAbs < n.toInt.natAbs → (write m).length ≤ (write n).length) ∧
    ∀ bytes : Bytes,
      (∃ left, readUnsigned bytes = .error .endOfInput left ∧
        ∀ first low, bytes = first :: low → ∀ n, StartsWithOnes first n → low.length < n) ∨
      ∃ first low rest v, bytes = first :: low ++ rest ∧ StartsWithOnes first low.length ∧
        readUnsigned bytes = .ok v rest ∧ (writeUnsigned v).length ≤ 1 + low.length := by
  refine ⟨reads_readUnsigned, fun v => ?_, reads_read, fun m n => length_write_le,
    readUnsigned_cases⟩
  rw [length_writeUnsigned]
  exact ⟨isLeast_size, size_eq_nine, size_eq_of_clz v⟩

end CqlClient.Vint
