import CqlClient.Proofs.Reads
import CqlClient.Vint

/-!
# Integers of variable length

* `Vint.reads_readUnsigned` and `Vint.reads_read`: numbers are read back from what is written;
* `Vint.length_writeUnsigned`: how many bytes that takes;
* `Vint.unzigzag_zigzag`: alternating around zero loses nothing.
-/

namespace CqlClient.Vint

/-! ## The first byte -/

theorem toNat_first {k top : Nat} (hk : k < 8) (ht : top < 2 ^ (7 - k)) :
    (UInt8.ofNat (256 - 2 ^ (8 - k) + top)).toNat = 256 - 2 ^ (8 - k) + top := by
  have hp : 2 ^ (8 - k) = 2 * 2 ^ (7 - k) := by
    rw [← Nat.pow_succ']; congr 1; omega
  have hle : 2 ^ (8 - k) ≤ 256 := Nat.pow_le_pow_right (by omega) (show 8 - k ≤ 8 by omega)
  rw [UInt8.toNat_ofNat', Nat.mod_eq_of_lt (by omega)]

/-- The first byte of a number that takes `k` more: `k` ones, a zero and its top bits. -/
theorem leadingOnes_first {k top : Nat} (hk : k < 8) (ht : top < 2 ^ (7 - k)) :
    leadingOnes (UInt8.ofNat (256 - 2 ^ (8 - k) + top)) = k := by
  have hp : 2 ^ (8 - k) = 2 * 2 ^ (7 - k) := by
    rw [← Nat.pow_succ']; congr 1; omega
  have hle : 2 ^ (8 - k) ≤ 256 := Nat.pow_le_pow_right (by omega) (show 8 - k ≤ 8 by omega)
  have hv := toNat_first hk ht
  have hne : UInt8.ofNat (256 - 2 ^ (8 - k) + top) ≠ 0xFF := by
    intro h
    have h' := congrArg UInt8.toNat h
    rw [hv] at h'
    have : (0xFF : UInt8).toNat = 255 := rfl
    omega
  have hlog : (255 - (256 - 2 ^ (8 - k) + top)).log2 = 7 - k := by
    rw [Nat.log2_eq_iff (by omega), show 7 - k + 1 = 8 - k by omega]
    omega
  rw [leadingOnes, if_neg hne, hv, hlog]
  omega

theorem top_of_first {k top : Nat} (hk : k < 8) (ht : top < 2 ^ (7 - k)) :
    (256 - 2 ^ (8 - k) + top) % 2 ^ (8 - k) = top := by
  have hsplit : 256 - 2 ^ (8 - k) = 2 ^ (8 - k) * (2 ^ k - 1) := by
    rw [Nat.mul_sub, ← Nat.pow_add, show 8 - k + k = 8 by omega, Nat.mul_one]
  have hlt : top < 2 ^ (8 - k) :=
    Nat.lt_of_lt_of_le ht (Nat.pow_le_pow_right (by omega) (by omega))
  rw [hsplit, Nat.mul_add_mod, Nat.mod_eq_of_lt hlt]

/-! ## Unsigned numbers -/

theorem reads_of_first (first : UInt8) (low : Bytes) (h : low.length = leadingOnes first) :
    Reads readUnsigned (first :: low)
      (UInt64.ofNat ((first.toNat % 2 ^ (8 - leadingOnes first)) * 256 ^ leadingOnes first +
        low.toNat)) :=
  (reads_uint8 first).bind ((reads_raw h).map _)

/-- Numbers with `k` bytes after the first one have at most `7 * (k + 1)` bits. -/
theorem lt_of_extraBytes {n : Nat} (h : extraBytes n < 8) : n < 2 ^ (7 * (extraBytes n + 1)) := by
  by_cases hn : n = 0
  · subst hn
    exact Nat.two_pow_pos _
  · have hlog : n.log2 < 7 * (extraBytes n + 1) := by
      simp only [extraBytes] at h ⊢
      omega
    exact (Nat.log2_lt hn).mp hlog

theorem writeUnsigned_of_eight {v : UInt64} (h : extraBytes v.toNat = 8) :
    writeUnsigned v = 0xFF :: Bytes.ofNat 8 v.toNat := by
  simp only [writeUnsigned, h, ↓reduceIte]

/-- The top bits of a number share the first byte with the count of the other bytes. -/
theorem writeUnsigned_of_lt {v : UInt64} {k : Nat} (hk : extraBytes v.toNat = k) (h8 : k < 8) :
    writeUnsigned v = UInt8.ofNat (256 - 2 ^ (8 - k) + v.toNat / 256 ^ k) ::
      Bytes.ofNat k ((256 - 2 ^ (8 - k)) * 256 ^ k + v.toNat) := by
  have hfirst : ((256 - 2 ^ (8 - k)) * 256 ^ k + v.toNat) / 256 ^ k =
      256 - 2 ^ (8 - k) + v.toNat / 256 ^ k := by
    rw [Nat.mul_comm, Nat.mul_add_div (Nat.pow_pos (by omega))]
  rw [writeUnsigned, hk, if_neg (by omega), ofNat_succ, hfirst]

/-- The bytes of a number of variable length. -/
def size (n : Nat) : Nat := extraBytes n + 1

theorem length_writeUnsigned (v : UInt64) : (writeUnsigned v).length = size v.toNat := by
  have hle : extraBytes v.toNat ≤ 8 := Nat.min_le_right _ _
  by_cases h8 : extraBytes v.toNat = 8
  · rw [writeUnsigned_of_eight h8, List.length_cons, Bytes.length_ofNat, size, h8]
  · rw [writeUnsigned_of_lt rfl (by omega), List.length_cons, Bytes.length_ofNat, size]

theorem reads_readUnsigned (v : UInt64) : Reads readUnsigned (writeUnsigned v) v := by
  have hle : extraBytes v.toNat ≤ 8 := Nat.min_le_right _ _
  by_cases h8 : extraBytes v.toNat = 8
  · have h := reads_of_first 0xFF _ (Bytes.length_ofNat 8 v.toNat)
    rw [show leadingOnes 0xFF = 8 from rfl, toNat_ofNat_of_lt v.toNat_lt, Nat.sub_self,
      Nat.pow_zero, Nat.mod_one, Nat.zero_mul, Nat.zero_add, UInt64.ofNat_toNat] at h
    rwa [writeUnsigned_of_eight h8]
  · have hlt := lt_of_extraBytes (show extraBytes v.toNat < 8 by omega)
    obtain ⟨k, hk⟩ : ∃ k, extraBytes v.toNat = k := ⟨_, rfl⟩
    rw [hk] at h8 hlt hle
    have hk8 : k < 8 := by omega
    have hpow : 2 ^ (7 * (k + 1)) = 2 ^ (7 - k) * 256 ^ k := by
      rw [show (256 : Nat) ^ k = 2 ^ (8 * k) by rw [Nat.pow_mul], ← Nat.pow_add]
      congr 1
      omega
    have htop : v.toNat / 256 ^ k < 2 ^ (7 - k) := by
      rw [Nat.div_lt_iff_lt_mul (Nat.pow_pos (by omega)), ← hpow]
      exact hlt
    have hones := leadingOnes_first hk8 htop
    have h := reads_of_first (UInt8.ofNat (256 - 2 ^ (8 - k) + v.toNat / 256 ^ k))
      (Bytes.ofNat k ((256 - 2 ^ (8 - k)) * 256 ^ k + v.toNat))
      (by rw [hones, Bytes.length_ofNat])
    rw [hones, toNat_first hk8 htop, top_of_first hk8 htop, Bytes.toNat_ofNat,
      Nat.mul_add_mod_self_right, Nat.div_add_mod', UInt64.ofNat_toNat] at h
    rwa [writeUnsigned_of_lt hk hk8]

/-! ## Signed numbers -/

theorem toNat_zigzag (v : Int64) :
    (zigzag v).toNat = if 0 ≤ v.toInt then 2 * v.toInt.toNat else 2 * (-v.toInt).toNat - 1 := by
  have hlo := v.le_toInt
  have hhi := v.toInt_lt
  rw [zigzag, UInt64.toNat_ofNat', Nat.mod_eq_of_lt]
  split <;> omega

theorem unzigzag_zigzag (v : Int64) : unzigzag (zigzag v) = v := by
  have hn := toNat_zigzag v
  have e : (if (zigzag v).toNat % 2 = 0 then (((zigzag v).toNat / 2 : Nat) : Int)
      else -(((zigzag v).toNat / 2 : Nat) : Int) - 1) = v.toInt := by
    rw [hn]
    split <;> split <;> omega
  rw [unzigzag]
  simp only [e, Int64.ofInt_toInt]

theorem reads_read (v : Int64) : Reads read (write v) v := by
  have h := (reads_readUnsigned (zigzag v)).map unzigzag
  rwa [unzigzag_zigzag] at h

end CqlClient.Vint
