import CqlClient.Sharding
import Mathlib.Data.Nat.ModEq

/-!
# The source ports of a shard

A port is served by the shard that has its remainder by the number of shards. The first such port
is found by going ahead from the least one, the others by going on in steps of that number:

* `Sharding.served_iff`: these are all ports with that remainder, the first one included;
* `Sharding.firstPortWord?_eq`, `Sharding.portWordsFrom_eq`: a word of 32 bits has room for every
  number on the way;
* `Sharding.sourcePorts_exact`: the ports, in order, and the words that they are counted in.
-/

namespace CqlClient

namespace Sharding

variable (s : Sharding)

/-! ## Ports by remainder -/

theorem minPort_le_firstPort : minPort ≤ s.firstPort := Nat.le_add_right ..

theorem firstPort_lt : s.firstPort < minPort + s.count.toNat :=
  Nat.add_lt_add_left (Nat.mod_lt _ s.count_pos) minPort

/-- The way ahead makes up for the remainder of the least port. -/
theorem firstPort_modEq : s.firstPort ≡ s.shard.toNat [MOD s.count.toNat] := by
  have hrem := Nat.mod_lt minPort s.count_pos
  calc s.firstPort
      ≡ minPort + (s.shard.toNat + s.count.toNat - minPort % s.count.toNat) [MOD s.count.toNat] :=
        (Nat.mod_modEq _ _).add_left _
    _ ≡ minPort % s.count.toNat + (s.shard.toNat + s.count.toNat - minPort % s.count.toNat)
          [MOD s.count.toNat] := (Nat.mod_modEq _ _).symm.add_right _
    _ = s.shard.toNat + s.count.toNat := by omega
    _ ≡ s.shard.toNat [MOD s.count.toNat] := Nat.add_mod_right ..

/-- No port between the least one and the first one has the remainder of the shard. -/
theorem firstPort_le {port : Nat} (hleast : minPort ≤ port)
    (hsame : port ≡ s.shard.toNat [MOD s.count.toNat]) : s.firstPort ≤ port := by
  by_contra hbefore
  have hapart : s.count.toNat ∣ s.firstPort - port :=
    (Nat.modEq_iff_dvd' (Nat.le_of_not_le hbefore)).mp (hsame.trans s.firstPort_modEq.symm)
  have hfar := Nat.le_of_dvd (by omega) hapart
  have hnear := s.firstPort_lt
  omega

theorem served_iff {port : Nat} :
    minPort ≤ port ∧ port ≡ s.shard.toNat [MOD s.count.toNat] ↔
      ∃ i, port = s.firstPort + s.count.toNat * i := by
  constructor
  · rintro ⟨hleast, hsame⟩
    have hfirst := s.firstPort_le hleast hsame
    obtain ⟨i, hapart⟩ := (Nat.modEq_iff_dvd' hfirst).mp (s.firstPort_modEq.trans hsame.symm)
    exact ⟨i, by omega⟩
  · rintro ⟨i, rfl⟩
    refine ⟨s.minPort_le_firstPort.trans (Nat.le_add_right ..), ?_⟩
    exact (Nat.add_modulus_mul_modEq_iff.mpr rfl).trans s.firstPort_modEq

/-! ## How many there are -/

/-- How many of the numbers from one on, in steps, are ports. -/
def portCount (step port : Nat) : Nat := (65536 - port + step - 1) / step

variable {step port : Nat} (hpos : 0 < step)
include hpos

theorem lt_portCount_iff {i : Nat} : i < portCount step port ↔ port + step * i ≤ 65535 := by
  rw [portCount, ← Nat.succ_le_iff, Nat.le_div_iff_mul_le hpos, Nat.succ_mul, Nat.mul_comm]
  omega

theorem portCount_of_gt (hbeyond : 65535 < port) : portCount step port = 0 := by
  refine Nat.eq_zero_of_not_pos fun hsome => ?_
  have hinside := (lt_portCount_iff hpos).mp hsome
  omega

/-- After a port there is one less. -/
theorem portCount_of_le (hinside : port ≤ 65535) :
    portCount step port = portCount step (port + step) + 1 := by
  have hnext (i : Nat) : i < portCount step (port + step) ↔ i + 1 < portCount step port := by
    rw [lt_portCount_iff hpos, lt_portCount_iff hpos, Nat.mul_succ]
    omega
  have hfirst : 0 < portCount step port := (lt_portCount_iff hpos).mpr (by omega)
  have hlast := hnext (portCount step (port + step))
  have hbefore := hnext (portCount step (port + step) - 1)
  omega

omit hpos

variable {s}

theorem sourcePorts_eq :
    s.sourcePorts = List.range' s.firstPort (portCount s.count.toNat s.firstPort) s.count.toNat :=
  rfl

theorem mem_sourcePorts_iff {port : Nat} : port ∈ s.sourcePorts ↔
    minPort ≤ port ∧ port ≤ 65535 ∧ port ≡ s.shard.toNat [MOD s.count.toNat] := by
  rw [sourcePorts_eq, List.mem_range', and_left_comm, served_iff]
  constructor
  · rintro ⟨i, hfew, rfl⟩
    exact ⟨(lt_portCount_iff s.count_pos).mp hfew, i, rfl⟩
  · rintro ⟨hinside, i, rfl⟩
    exact ⟨i, (lt_portCount_iff s.count_pos).mpr hinside, rfl⟩

/-! ## Words of 32 bits -/

/-- The sum of two words, if a word has room for it. -/
def checkedAdd (a b : UInt32) : Option UInt32 :=
  if a.toNat + b.toNat < UInt32.size then some (a + b) else none

/-- The difference of two words, if it is not negative. -/
def checkedSub (a b : UInt32) : Option UInt32 := if b ≤ a then some (a - b) else none

section Checked

variable {a b c : UInt32}

theorem checkedAdd_eq_some : checkedAdd a b = some c ↔ c.toNat = a.toNat + b.toNat := by
  have hsum (hroom : a.toNat + b.toNat < UInt32.size) : (a + b).toNat = a.toNat + b.toNat := by
    rw [UInt32.toNat_add, Nat.mod_eq_of_lt hroom]
  rw [checkedAdd, Option.ite_none_right_eq_some, Option.some.injEq, ← UInt32.toNat_inj]
  constructor
  · rintro ⟨hroom, hsame⟩
    exact hsame ▸ hsum hroom
  · intro hsame
    have hroom : a.toNat + b.toNat < UInt32.size := hsame ▸ c.toNat_lt
    exact ⟨hroom, (hsum hroom).trans hsame.symm⟩

theorem checkedSub_eq_some : checkedSub a b = some c ↔ b.toNat + c.toNat = a.toNat := by
  rw [checkedSub, Option.ite_none_right_eq_some, Option.some.injEq, ← UInt32.toNat_inj,
    UInt32.le_iff_toNat_le]
  constructor
  · rintro ⟨hle, hsame⟩
    rw [← hsame, UInt32.toNat_sub_of_le a b hle, Nat.add_sub_cancel' hle]
  · intro hsame
    have hle : b.toNat ≤ a.toNat := hsame ▸ Nat.le_add_right ..
    rw [UInt32.toNat_sub_of_le a b hle]
    exact ⟨hle, by omega⟩

end Checked

variable (s)

/-- The first port, if words have room for every step on the way to it. -/
def firstPortWord? : Option UInt32 := do
  let n := s.count.toUInt32
  let least := UInt32.ofNat minPort
  let sum ← checkedAdd s.shard.toUInt32 n
  let ahead ← checkedSub sum (least % n)
  checkedAdd least (ahead % n)

/-- The ports from a word on, each of them so many further as there are shards, if words have room
for every step. -/
def portWordsFrom (port : UInt32) : Option (List UInt16) :=
  if port.toNat ≤ 65535 then
    match _sum : checkedAdd port s.count.toUInt32 with
    | none => none
    | some following => (portWordsFrom following).map (port.toUInt16 :: ·)
  else some []
termination_by 65536 - port.toNat
decreasing_by
  have further := checkedAdd_eq_some.mp _sum
  have step := s.count_pos
  rw [UInt16.toNat_toUInt32] at further
  omega

def sourcePortWords? : Option (List UInt16) := s.firstPortWord? >>= s.portWordsFrom

theorem exists_checkedAdd {a b : UInt32} (hroom : a.toNat + b.toNat < UInt32.size) :
    ∃ sum, checkedAdd a b = some sum ∧ sum.toNat = a.toNat + b.toNat :=
  ⟨UInt32.ofNat (a.toNat + b.toNat), checkedAdd_eq_some.mpr (UInt32.toNat_ofNat_of_lt' hroom),
    UInt32.toNat_ofNat_of_lt' hroom⟩

theorem exists_checkedSub {a b : UInt32} (hle : b.toNat ≤ a.toNat) :
    ∃ difference, checkedSub a b = some difference ∧ b.toNat + difference.toNat = a.toNat := by
  have hwhole : (a - b).toNat = a.toNat - b.toNat := UInt32.toNat_sub_of_le a b hle
  exact ⟨a - b, checkedSub_eq_some.mpr (by omega), by omega⟩

theorem firstPortWord?_eq : ∃ first, s.firstPortWord? = some first ∧ first.toNat = s.firstPort := by
  have hcount : s.count.toUInt32.toNat = s.count.toNat := UInt16.toNat_toUInt32 _
  have hshard : s.shard.toUInt32.toNat = s.shard.toNat := UInt16.toNat_toUInt32 _
  have hleast : (UInt32.ofNat minPort).toNat = minPort := rfl
  have hcountLt := s.count.toNat_lt
  have hshardLt := s.shard.toNat_lt
  have hremLt := Nat.mod_lt minPort s.count_pos
  obtain ⟨sum, hsumWord, hsum⟩ := exists_checkedAdd
    (show s.shard.toUInt32.toNat + s.count.toUInt32.toNat < UInt32.size by
      rw [UInt32.size]; omega)
  obtain ⟨ahead, haheadWord, hahead⟩ := exists_checkedSub
    (show (UInt32.ofNat minPort % s.count.toUInt32).toNat ≤ sum.toNat by
      rw [UInt32.toNat_mod, hcount, hleast]; omega)
  rw [UInt32.toNat_mod, hcount, hleast] at hahead
  have haheadLt := Nat.mod_lt ahead.toNat s.count_pos
  obtain ⟨first, hfirstWord, hfirst⟩ := exists_checkedAdd
    (show (UInt32.ofNat minPort).toNat + (ahead % s.count.toUInt32).toNat < UInt32.size by
      rw [UInt32.toNat_mod, hcount, hleast, UInt32.size, minPort]; omega)
  refine ⟨first, ?_, ?_⟩
  · simp only [firstPortWord?, hsumWord, haheadWord, hfirstWord, Option.bind_eq_bind,
      Option.bind_some]
  · have hahead : ahead.toNat = s.shard.toNat + s.count.toNat - minPort % s.count.toNat := by
      omega
    rw [hfirst, hleast, UInt32.toNat_mod, hcount, hahead]
    rfl

theorem portWordsFrom_of_le {port following : UInt32} (hinside : port.toNat ≤ 65535)
    (hsum : checkedAdd port s.count.toUInt32 = some following) :
    s.portWordsFrom port = (s.portWordsFrom following).map (port.toUInt16 :: ·) := by
  rw [portWordsFrom, if_pos hinside]
  split
  · next full => cases full.symm.trans hsum
  · next other same =>
    obtain rfl := Option.some.inj (same.symm.trans hsum)
    rfl

theorem portWordsFrom_of_gt {port : UInt32} (hbeyond : ¬ port.toNat ≤ 65535) :
    s.portWordsFrom port = some [] := by
  rw [portWordsFrom, if_neg hbeyond]

/-- The ports from a word on, by induction on how far it is to the last one. -/
theorem portWordsFrom_eq (port : UInt32) : ∃ ports, s.portWordsFrom port = some ports ∧
    ports.map UInt16.toNat =
      List.range' port.toNat (portCount s.count.toNat port.toNat) s.count.toNat := by
  have hcount : s.count.toUInt32.toNat = s.count.toNat := UInt16.toNat_toUInt32 _
  have hcountLt := s.count.toNat_lt
  have hpos := s.count_pos
  induction h : 65536 - port.toNat using Nat.strong_induction_on generalizing port with
  | h left ih =>
    by_cases hinside : port.toNat ≤ 65535
    · obtain ⟨next, hnextWord, hnext⟩ := exists_checkedAdd
        (show port.toNat + s.count.toUInt32.toNat < UInt32.size by rw [UInt32.size]; omega)
      rw [hcount] at hnext
      obtain ⟨ports, hportWords, hports⟩ := ih (65536 - next.toNat) (by omega) next rfl
      have hlow : port.toUInt16.toNat = port.toNat := by
        rw [UInt32.toNat_toUInt16]; omega
      refine ⟨port.toUInt16 :: ports, ?_, ?_⟩
      · rw [s.portWordsFrom_of_le hinside hnextWord, hportWords, Option.map_some]
      · rw [List.map_cons, hlow, hports, hnext, portCount_of_le hpos hinside,
          List.range'_succ]
    · refine ⟨[], s.portWordsFrom_of_gt hinside, ?_⟩
      rw [portCount_of_gt hpos (Nat.lt_of_not_le hinside)]
      rfl

/-! ## The ports of every shard -/

/-- Whatever the shard and the number of shards, the source ports are in order all the ports that
have the remainder of the shard, and so they are when counted in words of 32 bits, none of which
has ever too little room. -/
theorem sourcePorts_exact (s : Sharding) :
    s.sourcePorts.Pairwise (· < ·) ∧
    (∀ port, port ∈ s.sourcePorts ↔ 49152 ≤ port ∧ port ≤ 65535 ∧
      port % s.count.toNat = s.shard.toNat % s.count.toNat) ∧
    ∃ ports, s.sourcePortWords? = some ports ∧ ports.map UInt16.toNat = s.sourcePorts := by
  refine ⟨List.pairwise_lt_range' s.count.toNat s.count_pos, fun port => mem_sourcePorts_iff, ?_⟩
  obtain ⟨first, hfirstWord, hfirst⟩ := s.firstPortWord?_eq
  obtain ⟨ports, hportWords, hports⟩ := s.portWordsFrom_eq first
  refine ⟨ports, ?_, ?_⟩
  · rw [sourcePortWords?, hfirstWord]
    exact hportWords
  · rw [hports, hfirst, sourcePorts_eq]

end Sharding

end CqlClient
