import CqlClient.Proofs.Vint.Size

/-!
# Integers of variable length by the bits of their words

Numbers are taken apart and put together by multiplication and division. On a word of 64 bits the
same is done by masks and shifts:

* `Vint.zigzag_eq_xor`, `Vint.unzigzag_eq_xor`: alternating around zero is one shift and the sign;
* `Vint.writeUnsigned_eq_or`: the first byte shares its bits with a mask of ones;
* `Vint.readUnsigned_of_first`: the mask is taken off, and the other bytes are shifted in.
-/

namespace CqlClient.Vint

/-! ## Signed numbers -/

/-- The sign fills a word, which flips the bits of negative numbers. -/
theorem zigzag_eq_xor (v : Int64) : zigzag v = ((v >>> 63) ^^^ (v <<< 1)).toUInt64 := by
  rw [← UInt64.toNat_inj, toNat_zigzag]
  have hint : v.toInt = v.toBitVec.toInt := rfl
  show _ = (v.toBitVec.sshiftRight 63 ^^^ v.toBitVec <<< 1).toNat
  rw [hint, BitVec.toInt_eq_toNat_cond]
  generalize v.toBitVec = x
  have hx := x.isLt
  cases hmsb : x.msb with
  | false =>
    have hlow : x.toNat < 2 ^ 63 := by simpa [BitVec.msb_eq_decide] using hmsb
    have hsign : x >>> 63 = 0#64 := by
      rw [BitVec.toNat_eq, BitVec.toNat_ushiftRight, Nat.shiftRight_eq_div_pow]
      exact Nat.div_eq_of_lt hlow
    rw [if_pos (by omega), if_pos (by omega), BitVec.sshiftRight_eq_of_msb_false hmsb, hsign,
      BitVec.zero_xor, BitVec.toNat_shiftLeft, Nat.shiftLeft_eq]
    omega
  | true =>
    have hhigh : 2 ^ 63 ≤ x.toNat := by simpa [BitVec.msb_eq_decide] using hmsb
    have hsign : ~~~x >>> 63 = 0#64 := by
      rw [BitVec.toNat_eq, BitVec.toNat_ushiftRight, Nat.shiftRight_eq_div_pow, BitVec.toNat_not]
      exact Nat.div_eq_of_lt (by omega)
    rw [if_neg (by omega), if_neg (by omega), BitVec.sshiftRight_eq_of_msb_true hmsb, hsign,
      BitVec.not_zero, BitVec.allOnes_xor, BitVec.toNat_not, BitVec.toNat_shiftLeft,
      Nat.shiftLeft_eq]
    omega

/-- The lowest bit is the sign that fills the word. -/
theorem unzigzag_eq_xor (u : UInt64) :
    unzigzag u = (u >>> 1).toInt64 ^^^ -(u &&& 1).toInt64 := by
  rw [← Int64.toBitVec_inj]
  show BitVec.ofInt 64 _ = u.toBitVec >>> 1 ^^^ -(u.toBitVec &&& 1#64)
  have hnat : u.toNat = u.toBitVec.toNat := rfl
  rw [hnat]
  generalize u.toBitVec = x
  have hx := x.isLt
  have hodd : (x &&& 1#64).toNat = x.toNat % 2 := by
    rw [BitVec.toNat_and]
    exact Nat.and_two_pow_sub_one_eq_mod x.toNat 1
  by_cases heven : x.toNat % 2 = 0
  · have hbit : x &&& 1#64 = 0#64 := BitVec.toNat_inj.mp (hodd.trans heven)
    rw [if_pos heven, hbit, BitVec.neg_zero, BitVec.xor_zero, BitVec.toNat_eq, BitVec.toNat_ofInt,
      BitVec.toNat_ushiftRight, Nat.shiftRight_eq_div_pow]
    omega
  · have hbit : x &&& 1#64 = 1#64 := BitVec.toNat_inj.mp (hodd.trans (by simpa using heven))
    rw [if_neg heven, hbit, BitVec.neg_one_eq_allOnes, BitVec.xor_allOnes, BitVec.toNat_eq,
      BitVec.toNat_ofInt, BitVec.toNat_not, BitVec.toNat_ushiftRight, Nat.shiftRight_eq_div_pow]
    omega

/-! ## Writing -/

/-- The last bytes of a number in a wider field are those of the number in a narrower one. -/
theorem drop_ofNat (extra width n : Nat) :
    (Bytes.ofNat (extra + width) n).drop extra = Bytes.ofNat width n := by
  induction width generalizing n with
  | zero => exact List.drop_of_length_le (Nat.le_of_eq (Bytes.length_ofNat extra n))
  | succ width ih =>
    rw [← Nat.add_assoc, Bytes.ofNat, Bytes.ofNat, List.drop_append_of_le_length, ih]
    rw [Bytes.length_ofNat]
    omega

/-- As many ones as there are bytes to come, ahead of the number. -/
def mask (extra : Nat) : UInt64 :=
  (~~~((0xFF : UInt8) >>> UInt8.ofNat extra)).toUInt64 <<< UInt64.ofNat (8 * extra)

theorem toNat_mask : ∀ extra < 8,
    (mask extra).toNat = (2 ^ extra - 1) <<< (7 * extra + 8) ∧
      (256 - 2 ^ (8 - extra)) * 256 ^ extra = (2 ^ extra - 1) <<< (7 * extra + 8) := by decide

theorem toNat_or_mask {v : UInt64} {extra : Nat} (h : extra < 8)
    (hv : v.toNat < 2 ^ (7 * extra + 8)) :
    (v ||| mask extra).toNat = (256 - 2 ^ (8 - extra)) * 256 ^ extra + v.toNat := by
  obtain ⟨hmask, hsum⟩ := toNat_mask extra h
  rw [UInt64.toNat_or, hmask, hsum, Nat.or_comm, Nat.shiftLeft_add_eq_or_of_lt hv]

/-- The leading zeros of a word say how many bytes its number takes, and the last ones of the masked
word are these bytes, unless a first byte of ones stands ahead of the whole word. -/
theorem writeUnsigned_eq_or (v : UInt64) :
    writeUnsigned v =
      let size := (639 - 9 * v.toBitVec.clz.toNat) >>> 6
      if size ≤ 1 then [v.toUInt8]
      else if size - 1 < 8 then (Bytes.ofUInt64 (v ||| mask (size - 1))).drop (8 - size)
      else 0xFF :: Bytes.ofUInt64 v := by
  have hsize := size_eq_of_clz v
  have hle : extraBytes v.toNat ≤ 8 := Nat.min_le_right _ _
  generalize (639 - 9 * v.toBitVec.clz.toNat) >>> 6 = s at hsize
  obtain ⟨extra, hextra⟩ : ∃ extra, extraBytes v.toNat = extra := ⟨_, rfl⟩
  rw [size, hextra] at hsize
  rw [hextra] at hle
  simp only
  rcases Nat.eq_or_lt_of_le hle with rfl | hlt
  · rw [if_neg (by omega), if_neg (by omega), writeUnsigned_of_eight hextra]
    rfl
  · have hv := lt_of_extraBytes (hextra ▸ hlt)
    have hwritten : writeUnsigned v =
        Bytes.ofNat (extra + 1) ((256 - 2 ^ (8 - extra)) * 256 ^ extra + v.toNat) := by
      rw [writeUnsigned, hextra]
      exact if_neg (by omega)
    rw [hextra] at hv
    rw [hwritten]
    by_cases hone : s ≤ 1
    · obtain rfl : extra = 0 := by omega
      rw [if_pos hone]
      show [UInt8.ofNat ((256 - 2 ^ 8) * 256 ^ 0 + v.toNat)] = [UInt8.ofNat v.toNat]
      rw [Nat.sub_self, Nat.zero_mul, Nat.zero_add]
    · obtain rfl : s = extra + 1 := by omega
      have hbits : v.toNat < 2 ^ (7 * extra + 8) :=
        Nat.lt_of_lt_of_le hv (Nat.pow_le_pow_right (by omega) (by omega))
      rw [if_neg hone, Nat.add_sub_cancel, if_pos hlt, Bytes.ofUInt64, toNat_or_mask hlt hbits,
        ← drop_ofNat (8 - (extra + 1)) (extra + 1), show 8 - (extra + 1) + (extra + 1) = 8 by omega]

/-! ## Reading -/

/-- A number with one more byte. -/
def shiftIn (v : UInt64) (b : UInt8) : UInt64 := v <<< 8 ||| b.toUInt64

theorem toNat_shiftIn (v : UInt64) (b : UInt8) :
    (shiftIn v b).toNat = (v.toNat * 256 + b.toNat) % 2 ^ 64 := by
  have hb := b.toNat_lt
  have hshift : v.toNat <<< 8 % 2 ^ 64 = (v.toNat % 2 ^ 56) <<< 8 := by
    rw [Nat.shiftLeft_eq, Nat.shiftLeft_eq]
    omega
  rw [shiftIn, UInt64.toNat_or, UInt64.toNat_shiftLeft, UInt8.toNat_toUInt64]
  show v.toNat <<< 8 % 2 ^ 64 ||| b.toNat = _
  rw [hshift, ← Nat.shiftLeft_add_eq_or_of_lt hb, Nat.shiftLeft_eq]
  omega

theorem foldl_shiftIn (low : Bytes) (v : UInt64) :
    low.foldl shiftIn v = UInt64.ofNat (v.toNat * 256 ^ low.length + low.toNat) := by
  induction low using List.reverseRecOn with
  | nil => simp [Bytes.toNat]
  | append_singleton low b ih =>
    rw [List.foldl_append, ih, List.foldl_cons, List.foldl_nil, ← UInt64.toNat_inj, toNat_shiftIn,
      UInt64.toNat_ofNat', UInt64.toNat_ofNat', Bytes.toNat_append_singleton, List.length_append,
      List.length_singleton,
      show 256 ^ (low.length + 1) = 256 ^ low.length * 256 from rfl, ← Nat.mul_assoc]
    generalize v.toNat * 256 ^ low.length = high
    omega

theorem toNat_and_mask {first : UInt8} {extra : Nat} (h : extra < 8) :
    (first &&& 0xFF >>> UInt8.ofNat extra).toNat = first.toNat % 2 ^ (8 - extra) := by
  have hmask : ∀ extra < 8, ((0xFF : UInt8) >>> UInt8.ofNat extra).toNat = 2 ^ (8 - extra) - 1 := by
    decide
  rw [UInt8.toNat_and, hmask extra h, Nat.and_two_pow_sub_one_eq_mod]

/-- The first byte is read without its ones, and the other bytes are shifted in behind it. -/
theorem readUnsigned_of_first {first : UInt8} {low : Bytes} (h : low.length = leadingOnes first)
    (rest : Bytes) :
    readUnsigned (first :: low ++ rest) =
      .ok (low.foldl shiftIn <| if low.length < 8 then
        (first &&& 0xFF >>> UInt8.ofNat low.length).toUInt64 else 0) rest := by
  refine (reads_of_first first low h rest).trans ?_
  rw [foldl_shiftIn, ← h]
  split
  next hlt => rw [UInt8.toNat_toUInt64, toNat_and_mask hlt]
  next height =>
    have hle := (startsWithOnes_leadingOnes first).le
    rw [show 8 - low.length = 0 by omega, Nat.pow_zero, Nat.mod_one]
    rfl

end CqlClient.Vint
