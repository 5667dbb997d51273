import CqlClient.Sharding
import Mathlib.Algebra.Order.Floor.Div
import Mathlib.Data.Set.Card
import Mathlib.Order.Interval.Finset.Nat

/-!
# The shard of a token

The shards have equal parts of all positions, in order, and the arithmetic of machine words that
finds the part of a token is the arithmetic of numbers.

* `Sharding.toNat_position`: the position of a token, as a number;
* `Sharding.toNat_shardOf`: the shard of a token is the floor of a quotient, below the number of
  shards;
* `Sharding.equalParts`: without ignored bits the tokens of the shards follow each other in runs,
  all of one length up to one.
-/

namespace CqlClient

namespace Sharding

/-! ## Tokens by rank -/

/-- How many tokens are below a token. -/
def rank (token : Int64) : Nat := (token.toInt + 2 ^ 63).toNat

theorem cast_rank (token : Int64) : (rank token : Int) = token.toInt + 2 ^ 63 := by
  have hleast := token.le_toInt
  simp only [rank]
  omega

theorem rank_lt (token : Int64) : rank token < 2 ^ 64 := by
  have hgreatest := token.toInt_lt
  have hrank := cast_rank token
  omega

theorem rank_le_rank_iff {t u : Int64} : rank t ≤ rank u ↔ t ≤ u := by
  rw [Int64.le_iff_toInt_le]
  have := cast_rank t
  have := cast_rank u
  omega

theorem rank_injective : Function.Injective rank := by
  intro t u hsame
  apply Int64.toInt_inj.mp
  have := cast_rank t
  have := cast_rank u
  omega

theorem exists_rank_eq {r : Nat} (hsmall : r < 2 ^ 64) : ∃ token, rank token = r := by
  refine ⟨Int64.ofInt (r - 2 ^ 63), ?_⟩
  have hwhole := Int64.toInt_ofInt_of_le (n := (r : Int) - 2 ^ 63) (by omega) (by omega)
  simp only [rank, hwhole]
  omega

/-- Adding the sign bit to the word of a token counts it from the least one. -/
theorem toNat_biased (token : Int64) :
    (token.toUInt64 + 0x8000000000000000).toNat = rank token := by
  have hword : token.toUInt64.toNat = token.toBitVec.toNat := by
    rw [← UInt64.toNat_toBitVec, Int64.toBitVec_toUInt64]
  have hsigned := BitVec.toInt_eq_toNat_cond token.toBitVec
  rw [Int64.toInt_toBitVec] at hsigned
  have hbelow := token.toBitVec.isLt
  simp only [rank, UInt64.toNat_add, UInt64.reduceToNat, hword]
  split at hsigned <;> omega

/-! ## The quotient -/

/-- From 64 bits on there is nothing left of the token. -/
theorem toNat_position (ignoredBits : UInt8) (token : Int64) :
    (position ignoredBits token).toNat = rank token * 2 ^ ignoredBits.toNat % 2 ^ 64 := by
  unfold position
  split
  · next hfew =>
    have hfew : ignoredBits.toNat < 64 := by simpa [UInt8.lt_iff_toNat_lt] using hfew
    simp only [UInt64.toNat_shiftLeft, UInt8.toNat_toUInt64, Nat.mod_eq_of_lt hfew,
      Nat.shiftLeft_eq, toNat_biased]
  · next hmany =>
    have hmany : 64 ≤ ignoredBits.toNat := by simpa [UInt8.lt_iff_toNat_lt] using hmany
    have hwhole : 2 ^ 64 ∣ rank token * 2 ^ ignoredBits.toNat :=
      Dvd.dvd.mul_left (Nat.pow_dvd_pow 2 hmany) _
    simp [Nat.mod_eq_zero_of_dvd hwhole]

variable (s : Sharding)

theorem mul_position_lt (token : Int64) :
    s.count.toNat * (position s.ignoredBits token).toNat < s.count.toNat * 2 ^ 64 :=
  Nat.mul_lt_mul_of_pos_left (position s.ignoredBits token).toNat_lt s.count_pos

/-- The quotient is a shard, so that sixteen bits have room for it. -/
theorem toNat_shardOf (token : Int64) :
    (s.shardOf token).toNat = s.count.toNat * (position s.ignoredBits token).toNat / 2 ^ 64 ∧
      (s.shardOf token).toNat < s.count.toNat := by
  have hbelow : s.count.toNat * (position s.ignoredBits token).toNat / 2 ^ 64 < s.count.toNat :=
    Nat.div_lt_of_lt_mul (by simpa [Nat.mul_comm] using s.mul_position_lt token)
  have hfits : s.count.toNat * (position s.ignoredBits token).toNat / 2 ^ 64 < UInt16.size :=
    hbelow.trans s.count.toNat_lt
  simp only [shardOf, Nat.mul_comm (position s.ignoredBits token).toNat,
    UInt16.toNat_ofNat_of_lt' hfits]
  exact ⟨trivial, hbelow⟩

theorem shardOf_eq_of_position {t u : Int64}
    (hsame : (position s.ignoredBits t).toNat = (position s.ignoredBits u).toNat) :
    s.shardOf t = s.shardOf u := by
  simp only [shardOf, hsame]

/-- Bits that the shift drops do not count. -/
theorem mul_pow_mod {m : Nat} (hfew : m ≤ 64) (r : Nat) :
    r * 2 ^ m % 2 ^ 64 = r % 2 ^ (64 - m) * 2 ^ m := by
  have hsplit : 2 ^ 64 = 2 ^ (64 - m) * 2 ^ m := by rw [← Nat.pow_add, Nat.sub_add_cancel hfew]
  rw [hsplit, Nat.mul_mod_mul_right]

/-! ## The tokens of a shard -/

/-- The tokens of a shard. -/
def tokens (shard : Nat) : Set Int64 := {token | (s.shardOf token).toNat = shard}

/-- The rank of the first token of a shard, where no bits are ignored. -/
def start (shard : Nat) : Nat := shard * 2 ^ 64 ⌈/⌉ s.count.toNat

variable {s}

theorem start_le_iff {shard r : Nat} :
    s.start shard ≤ r ↔ shard * 2 ^ 64 ≤ s.count.toNat * r :=
  ceilDiv_le_iff_le_mul s.count_pos

theorem start_zero : s.start 0 = 0 := by simp [start]

theorem start_count : s.start s.count.toNat = 2 ^ 64 := by
  exact smul_ceilDiv s.count_pos (2 ^ 64)

/-- Parts of one size, rounded up, are as long as that size up to one. -/
theorem ceilDiv_add {n : Nat} (hpos : 0 < n) (a size : Nat) :
    a ⌈/⌉ n + size / n ≤ (a + size) ⌈/⌉ n ∧ (a + size) ⌈/⌉ n ≤ a ⌈/⌉ n + size / n + 1 := by
  have hparts : n * (size / n) ≤ size := Nat.mul_div_le _ _
  have hmore : size < n * (size / n + 1) := Nat.lt_mul_div_succ _ hpos
  constructor
  · have hreached : a + size ≤ n * ((a + size) ⌈/⌉ n) := le_smul_ceilDiv hpos
    have hroom : size / n ≤ (a + size) ⌈/⌉ n :=
      Nat.le_of_mul_le_mul_left (hparts.trans (by omega)) hpos
    have hbefore : a ⌈/⌉ n ≤ (a + size) ⌈/⌉ n - size / n := by
      apply (ceilDiv_le_iff_le_mul hpos).mpr
      rw [Nat.mul_sub]
      omega
    omega
  · have hreached : a ≤ n * (a ⌈/⌉ n) := le_smul_ceilDiv hpos
    apply (ceilDiv_le_iff_le_mul hpos).mpr
    calc a + size ≤ n * (a ⌈/⌉ n) + n * (size / n + 1) := by omega
      _ = n * (a ⌈/⌉ n + size / n + 1) := by rw [← Nat.mul_add, Nat.add_assoc]

theorem start_succ (shard : Nat) :
    s.start shard + 2 ^ 64 / s.count.toNat ≤ s.start (shard + 1) ∧
      s.start (shard + 1) ≤ s.start shard + 2 ^ 64 / s.count.toNat + 1 := by
  simpa only [start, Nat.succ_mul] using ceilDiv_add s.count_pos (shard * 2 ^ 64) (2 ^ 64)

theorem start_mono : Monotone s.start :=
  monotone_nat_of_le_succ fun shard => Nat.le_of_add_right_le (start_succ shard).1

variable (hall : s.ignoredBits = 0)
include hall

theorem toNat_position_of_all (token : Int64) :
    (position s.ignoredBits token).toNat = rank token := by
  rw [toNat_position, hall]
  simpa using Nat.mod_eq_of_lt (rank_lt token)

theorem shardOf_mono {t u : Int64} (hle : t ≤ u) : s.shardOf t ≤ s.shardOf u := by
  rw [UInt16.le_iff_toNat_le, (s.toNat_shardOf t).1, (s.toNat_shardOf u).1,
    toNat_position_of_all hall, toNat_position_of_all hall]
  exact Nat.div_le_div_right (Nat.mul_le_mul_left _ (rank_le_rank_iff.mpr hle))

/-- The tokens of a shard are those from its start to the start of the next. -/
theorem mem_tokens_iff {token : Int64} {shard : Nat} :
    token ∈ s.tokens shard ↔ s.start shard ≤ rank token ∧ rank token < s.start (shard + 1) := by
  simp only [tokens, Set.mem_ofPred_eq]
  rw [(s.toNat_shardOf token).1, toNat_position_of_all hall, start_le_iff, ← not_le, start_le_iff]
  omega

theorem rank_image_tokens {shard : Nat} (hshard : shard < s.count.toNat) :
    rank '' s.tokens shard = Finset.Ico (s.start shard) (s.start (shard + 1)) := by
  have hlast : s.start (shard + 1) ≤ 2 ^ 64 := start_count (s := s) ▸ start_mono hshard
  ext r
  simp only [Set.mem_image, mem_tokens_iff hall, Finset.coe_Ico, Set.mem_Ico]
  constructor
  · rintro ⟨token, hinside, rfl⟩
    exact hinside
  · intro hinside
    obtain ⟨token, rfl⟩ := exists_rank_eq (hinside.2.trans_le hlast)
    exact ⟨token, hinside, rfl⟩

theorem ncard_tokens {shard : Nat} (hshard : shard < s.count.toNat) :
    (s.tokens shard).ncard = s.start (shard + 1) - s.start shard := by
  rw [← Set.ncard_image_of_injective _ rank_injective, rank_image_tokens hall hshard,
    Set.ncard_coe_finset, Nat.card_Ico]

omit hall

variable (s) in
/-- The tokens of the shards follow each other in runs, all of one length up to one. -/
structure EqualParts : Prop where
  mono : ∀ t u : Int64, t ≤ u → s.shardOf t ≤ s.shardOf u
  first : s.start 0 = 0
  last : s.start s.count.toNat = 2 ^ 64
  run : ∀ shard < s.count.toNat, ∀ token : Int64, token ∈ s.tokens shard ↔
    (s.start shard : Int) ≤ token.toInt + 2 ^ 63 ∧ token.toInt + 2 ^ 63 < s.start (shard + 1)
  nonempty : ∀ shard < s.count.toNat, (s.tokens shard).Nonempty
  balanced : ∀ shard < s.count.toNat, ∀ other < s.count.toNat,
    (s.tokens shard).ncard ≤ (s.tokens other).ncard + 1

theorem equalParts (hall : s.ignoredBits = 0) : s.EqualParts where
  mono _ _ hle := shardOf_mono hall hle
  first := start_zero
  last := start_count
  run shard _ token := by
    rw [mem_tokens_iff hall, ← cast_rank]
    omega
  nonempty shard hshard := by
    have hshare : 0 < 2 ^ 64 / s.count.toNat :=
      Nat.div_pos (s.count.toNat_lt.le.trans (by decide)) s.count_pos
    have hnext := (start_succ (s := s) shard).1
    apply Set.nonempty_of_ncard_ne_zero
    rw [ncard_tokens hall hshard]
    omega
  balanced shard hshard other hother := by
    have hnext := start_succ (s := s) shard
    have hnextOther := start_succ (s := s) other
    rw [ncard_tokens hall hshard, ncard_tokens hall hother]
    omega

/-! ## The shard of every token -/

/-- What the shard of a token is, as a number, and how shards divide the tokens. -/
theorem shardOf_exact (s : Sharding) :
    (∀ token : Int64,
      ((position s.ignoredBits token).toNat : Int) =
        (token.toInt + 2 ^ 63) * 2 ^ s.ignoredBits.toNat % 2 ^ 64 ∧
      (position s.ignoredBits token).toNat * s.count.toNat < 2 ^ 128 ∧
      ((s.shardOf token).toNat : Int) =
        s.count.toNat * ((token.toInt + 2 ^ 63) * 2 ^ s.ignoredBits.toNat % 2 ^ 64) / 2 ^ 64 ∧
      s.shardOf token < s.count) ∧
    (s.ignoredBits = 0 → s.EqualParts) ∧
    (s.ignoredBits < 64 → ∀ t u : Int64,
      (t.toInt + 2 ^ 63) % 2 ^ (64 - s.ignoredBits.toNat) =
        (u.toInt + 2 ^ 63) % 2 ^ (64 - s.ignoredBits.toNat) → s.shardOf t = s.shardOf u) ∧
    (64 ≤ s.ignoredBits → ∀ token : Int64, s.shardOf token = 0) := by
  have hplace (token : Int64) : ((position s.ignoredBits token).toNat : Int) =
      (token.toInt + 2 ^ 63) * 2 ^ s.ignoredBits.toNat % 2 ^ 64 := by
    rw [toNat_position, ← cast_rank]
    norm_cast
  refine ⟨fun token => ⟨hplace token, ?_, ?_, ?_⟩, equalParts, ?_, ?_⟩
  · calc (position s.ignoredBits token).toNat * s.count.toNat
        < s.count.toNat * 2 ^ 64 := by simpa only [Nat.mul_comm] using s.mul_position_lt token
      _ ≤ 2 ^ 16 * 2 ^ 64 := Nat.mul_le_mul_right _ s.count.toNat_lt.le
      _ ≤ 2 ^ 128 := by decide
  · rw [← hplace, (s.toNat_shardOf token).1, Int.natCast_ediv, Nat.cast_mul]
    rfl
  · exact UInt16.lt_iff_toNat_lt.mpr (s.toNat_shardOf token).2
  · intro hfew t u hsame
    have hfew : s.ignoredBits.toNat ≤ 64 := (UInt8.lt_iff_toNat_lt.mp hfew).le
    have hsame : rank t % 2 ^ (64 - s.ignoredBits.toNat) =
        rank u % 2 ^ (64 - s.ignoredBits.toNat) := by
      apply Int.ofNat_inj.mp
      simpa only [Int.natCast_emod, Nat.cast_pow, Nat.cast_ofNat, cast_rank] using hsame
    apply s.shardOf_eq_of_position
    rw [toNat_position, toNat_position, mul_pow_mod hfew, mul_pow_mod hfew, hsame]
  · intro hmany token
    have hnothing : position s.ignoredBits token = 0 := by
      simp [position, UInt8.not_lt.mpr hmany]
    simp [shardOf, hnothing]

/-- A node with three shards. -/
def ofThree (ignoredBits : UInt8) : Sharding where
  shard := 1
  count := 3
  count_pos := by decide
  partitioner := none
  algorithm := .biasedTokenRoundRobin
  ignoredBits
  port := none
  securePort := none

theorem shardOf_exact_of_three :
    (ofThree 0).EqualParts ∧
    (ofThree 12).shardOf 7 = (ofThree 12).shardOf (7 - 0x10000000000000) ∧
    (ofThree 64).shardOf 7 = 0 :=
  ⟨(shardOf_exact (ofThree 0)).2.1 rfl,
    (shardOf_exact (ofThree 12)).2.2.1 (by decide) 7 (7 - 0x10000000000000) (by decide),
    (shardOf_exact (ofThree 64)).2.2.2 (by decide) 7⟩

end Sharding

end CqlClient
