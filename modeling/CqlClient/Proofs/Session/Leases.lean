import CqlClient.Proofs.Session.StreamPool
import Mathlib.Data.List.Nodup
import Mathlib.Data.List.Perm.Basic

/-!
# The ledger of a stream pool

Which ids are given out, and which are given up before their answer has come, can be told from what
was done with the pool, without a look at its slots or at its bits. `Leases` keeps that ledger
beside the pool.

* `Leases.Sound`: the ledger and the pool tell the same of every id;
* `Leases.Held.complete`, `Leases.leave_eq` and so on: what a use makes of the id it concerns;
* `Leases.Sound.apply`, `Leases.Sound.run`: the two tell the same after any use, and after any uses.
-/

namespace CqlClient

/-- An id that is given out. -/
structure Lease where
  id : Nat
  /-- The request is with the writer. -/
  sent : Bool
  /-- Since the id was given out an envelope has come for it, or the pool was closed. -/
  answered : Bool

structure Leases where
  pool : StreamPool
  /-- The ids given out, the last one first. -/
  live : List Lease
  /-- The ids given up while an answer was still to come. -/
  abandoned : List Nat

namespace Leases

/-- What is done with a pool. The ids given out are known by their places in the ledger. -/
inductive Use where
  | allocate
  | setSent (place : Nat)
  | complete (e : Envelope)
  | response (place : Nat)
  | drop (place : Nat)
  | close (fault : CallFault)

def new (size : Nat) : Leases := ⟨.new size, [], []⟩

def ids (s : Leases) : List Nat := s.live.map Lease.id ++ s.abandoned

def hear (stream : Int) (lease : Lease) : Lease :=
  { lease with answered := lease.answered || lease.id == stream }

/-- An id is abandoned when its request was sent and nothing has come for it. -/
def give (s : Leases) (lease : Lease) : List Nat :=
  if lease.sent && !lease.answered then lease.id :: s.abandoned else s.abandoned

def apply (s : Leases) : Use → Leases
  | .allocate =>
    match s.pool.allocate with
    | (.ok id, pool) => { s with pool, live := ⟨id, false, false⟩ :: s.live }
    | (.error _, pool) => { s with pool }
  | .setSent place =>
    match s.live[place]? with
    | some lease => { s with live := s.live.set place { lease with sent := true } }
    | none => s
  | .complete e =>
    { pool := (s.pool.complete e).2
      live := s.live.map (hear e.stream.toInt)
      abandoned := s.abandoned.filter fun id => (id : Int) ≠ e.stream.toInt }
  | .response place =>
    match s.live[place]? with
    | some lease => { s with pool := (s.pool.response lease.id).2 }
    | none => s
  | .drop place =>
    match s.live[place]? with
    | some lease =>
      { pool := s.pool.leave lease.id lease.sent
        live := s.live.eraseIdx place
        abandoned := s.give lease }
    | none => s
  | .close fault =>
    { pool := s.pool.close fault
      live := s.live.map fun lease => { lease with answered := true }
      abandoned := [] }

/-- The state after some uses, one after the other. -/
def run (s : Leases) (uses : List Use) : Leases := uses.foldl apply s

/-! ## What the ledger says of a slot -/

/-- The slot of an id that is given out waits until it is answered. -/
def Occupied (answered : Bool) : Slot → Prop
  | .waiting => answered = false
  | .completed _ | .consumed => answered = true
  | .free | .abandoned => False

structure Held (pool : StreamPool) (lease : Lease) : Prop where
  small : lease.id < pool.size
  bit : pool.available.testBit lease.id = false
  slot : Occupied lease.answered (pool.slot lease.id)

structure Owed (pool : StreamPool) (id : Nat) : Prop where
  bit : pool.available.testBit id = false
  slot : pool.slot id = .abandoned

structure Unused (pool : StreamPool) (id : Nat) : Prop where
  bit : pool.available.testBit id = decide (id < pool.size)
  slot : pool.slot id = .free

structure Sound (s : Leases) : Prop where
  distinct : s.ids.Nodup
  held : ∀ lease ∈ s.live, Held s.pool lease
  owed : ∀ id ∈ s.abandoned, Owed s.pool id
  unused : ∀ id, id ∉ s.ids → Unused s.pool id
  closed : s.pool.closed = true → s.abandoned = [] ∧ ∀ lease ∈ s.live, lease.answered = true

/-! ## Ids that a use does not concern -/

open StreamPool (AgreesAt AgreesOff)

section Agrees

variable {pool pool' : StreamPool} {lease : Lease} {id : Nat}

theorem Held.of_agrees (h : Held pool lease) (hpool : AgreesAt lease.id pool pool') :
    Held pool' lease := by
  refine ⟨?_, ?_, ?_⟩
  · rw [hpool.size]
    exact h.small
  · rw [hpool.bit]
    exact h.bit
  · rw [hpool.slot]
    exact h.slot

theorem Owed.of_agrees (h : Owed pool id) (hpool : AgreesAt id pool pool') : Owed pool' id := by
  refine ⟨?_, ?_⟩
  · rw [hpool.bit]
    exact h.bit
  · rw [hpool.slot]
    exact h.slot

theorem Unused.of_agrees (h : Unused pool id) (hpool : AgreesAt id pool pool') :
    Unused pool' id := by
  refine ⟨?_, ?_⟩
  · rw [hpool.bit, hpool.size]
    exact h.bit
  · rw [hpool.slot]
    exact h.slot

end Agrees

/-! ## What a use makes of an id -/

section Pool

variable {pool : StreamPool} {lease : Lease} {id : Nat} {e : Envelope}

/-- An id that is given up is abandoned just when the ledger says so. -/
theorem leave_eq (h : Held pool lease)
    (hclosed : pool.closed = true → lease.answered = true) :
    pool.leave lease.id lease.sent =
      if lease.sent && !lease.answered then pool.setSlot lease.id .abandoned
      else (pool.setSlot lease.id .free).release lease.id := by
  have hslot := h.slot
  unfold StreamPool.leave
  rcases pool.vacate_cases lease.id lease.sent with ⟨hwaiting, hsent, hopen, hp⟩ | ⟨hall, hp⟩
  · have hunanswered : lease.answered = false := by rwa [hwaiting] at hslot
    rw [hp, hsent, hunanswered]
    rfl
  · have hfree : (lease.sent && !lease.answered) = false := by
      cases hanswered : lease.answered with
      | true => exact Bool.and_false _
      | false =>
        cases hsent : lease.sent with
        | false => rfl
        | true =>
          have hwaiting : pool.slot lease.id = .waiting := by
            rw [hanswered] at hslot
            cases hcase : pool.slot lease.id <;> simp_all [Occupied]
          rw [hclosed (hall hwaiting hsent)] at hanswered
          cases hanswered
    rw [hp, hfree]
    rfl

theorem unused_release (h : id < pool.size) :
    Unused ((pool.setSlot id .free).release id) id := by
  refine ⟨?_, ?_⟩
  · simp [StreamPool.testBit_release, h]
  · simp [h]

/-- An envelope that comes for an id. -/
theorem complete_of_eq (hstream : e.stream.toInt = id) :
    ¬ e.stream < 0 ∧ e.stream.toInt.toNat = id := by
  refine ⟨?_, by omega⟩
  rw [Int16.lt_iff_toInt_lt]
  show ¬ e.stream.toInt < 0
  omega

/-- An envelope for an id that is given out is an answer to it. -/
theorem Held.complete (h : Held pool lease) (hstream : e.stream.toInt = lease.id) :
    Held (pool.complete e).2 { lease with answered := true } := by
  obtain ⟨hpos, hnat⟩ := complete_of_eq hstream
  have hslot := h.slot
  have hfilled : ∀ slot, Occupied true slot →
      Held (pool.setSlot lease.id slot) { lease with answered := true } := by
    intro slot hoccupied
    refine ⟨?_, h.bit, ?_⟩
    · rw [StreamPool.size_setSlot]
      exact h.small
    · rw [StreamPool.slot_setSlot_self _ h.small]
      exact hoccupied
  simp only [StreamPool.complete, if_neg hpos, hnat]
  cases hcase : pool.slot lease.id with
  | free =>
    rw [hcase] at hslot
    exact hslot.elim
  | abandoned =>
    rw [hcase] at hslot
    exact hslot.elim
  | waiting => exact hfilled _ rfl
  | completed result => exact hfilled _ rfl
  | consumed =>
    refine ⟨h.small, h.bit, ?_⟩
    show Occupied true (pool.slot lease.id)
    rw [hcase]
    rfl

theorem Owed.complete (h : Owed pool id) (hstream : e.stream.toInt = id) :
    Unused (pool.complete e).2 id := by
  obtain ⟨hpos, hnat⟩ := complete_of_eq hstream
  have hlt := StreamPool.lt_size_of_slot h.slot nofun
  have hcomplete : (pool.complete e).2 = (pool.setSlot id .free).release id := by
    simp only [StreamPool.complete, if_neg hpos, hnat, h.slot]
  rw [hcomplete]
  exact unused_release hlt

theorem Unused.complete (h : Unused pool id) (hstream : e.stream.toInt = id) :
    Unused (pool.complete e).2 id := by
  obtain ⟨hpos, hnat⟩ := complete_of_eq hstream
  have hcomplete : (pool.complete e).2 = pool := by
    simp only [StreamPool.complete, if_neg hpos, hnat, h.slot]
  rw [hcomplete]
  exact h

theorem Held.close (h : Held pool lease) (fault : CallFault) (hopen : pool.closed = false) :
    Held (pool.close fault) { lease with answered := true } := by
  obtain ⟨hsize, -, hswept, hbit⟩ := pool.close_of_open lease.id fault hopen
  have hslot := h.slot
  refine ⟨hsize.symm ▸ h.small, ?_, ?_⟩
  · refine hbit.trans ?_
    rw [h.bit]
    cases hcase : pool.slot lease.id <;> simp_all [Occupied, Slot.isAbandoned]
  · show Occupied true ((pool.close fault).slot lease.id)
    rw [hswept]
    cases hcase : pool.slot lease.id <;> simp_all [Occupied, Slot.swept]

theorem Owed.close (h : Owed pool id) (fault : CallFault) (hopen : pool.closed = false) :
    Unused (pool.close fault) id := by
  obtain ⟨hsize, -, hswept, hbit⟩ := pool.close_of_open id fault hopen
  have hlt := StreamPool.lt_size_of_slot h.slot nofun
  refine ⟨?_, ?_⟩
  · rw [hbit, h.slot, hsize]
    simp [Slot.isAbandoned, hlt]
  · rw [hswept, h.slot]
    rfl

theorem Unused.close (h : Unused pool id) (fault : CallFault) (hopen : pool.closed = false) :
    Unused (pool.close fault) id := by
  obtain ⟨hsize, -, hswept, hbit⟩ := pool.close_of_open id fault hopen
  refine ⟨?_, ?_⟩
  · rw [hbit, h.slot, hsize, h.bit]
    exact Bool.or_false _
  · rw [hswept, h.slot]
    rfl

end Pool

namespace Sound

variable {s : Leases}

theorem id_mem {lease : Lease} (h : lease ∈ s.live) : lease.id ∈ s.ids :=
  List.mem_append_left _ (List.mem_map_of_mem h)

theorem abandoned_mem {id : Nat} (h : id ∈ s.abandoned) : id ∈ s.ids := List.mem_append_right _ h

/-- An id whose bit is set is nobody's. -/
theorem not_mem_of_bit (h : s.Sound) {id : Nat} (hbit : s.pool.available.testBit id = true) :
    id ∉ s.ids := by
  intro hmem
  rcases List.mem_append.mp hmem with hlive | habandoned
  · obtain ⟨lease, hlease, rfl⟩ := List.mem_map.mp hlive
    rw [(h.held lease hlease).bit] at hbit
    cases hbit
  · rw [(h.owed id habandoned).bit] at hbit
    cases hbit

theorem lt_size_of_bit (h : s.Sound) {id : Nat} (hbit : s.pool.available.testBit id = true) :
    id < s.pool.size := by
  have hfree := (h.unused id (h.not_mem_of_bit hbit)).bit
  rw [hbit] at hfree
  simpa using hfree

theorem eq_of_id (h : s.Sound) {lease other : Lease} (hlease : lease ∈ s.live)
    (hother : other ∈ s.live) (hid : other.id = lease.id) : other = lease :=
  List.inj_on_of_nodup_map (List.nodup_append.mp h.distinct).1 hother hlease hid

theorem ne_of_abandoned (h : s.Sound) {lease : Lease} {id : Nat} (hlease : lease ∈ s.live)
    (hid : id ∈ s.abandoned) : id ≠ lease.id :=
  Ne.symm ((List.nodup_append.mp h.distinct).2.2 _ (List.mem_map_of_mem hlease) id hid)

/-- The id at a place is given out at no other place, and is not abandoned. -/
theorem perm_ids {place : Nat} {lease : Lease} (hplace : s.live[place]? = some lease) :
    s.ids.Perm (lease.id :: ((s.live.eraseIdx place).map Lease.id ++ s.abandoned)) := by
  obtain ⟨hlt, rfl⟩ := List.getElem?_eq_some_iff.mp hplace
  have hperm := (List.getElem_cons_eraseIdx_perm hlt).symm.map Lease.id
  exact hperm.append_right s.abandoned

/-! ## Uses that concern one id -/

/-- What is noted of the ids changes, their order and the pool do not. -/
theorem relabel (h : s.Sound) {live : List Lease} (hids : live.map Lease.id = s.live.map Lease.id)
    (hheld : ∀ lease ∈ live, Held s.pool lease)
    (hclosed : s.pool.closed = true → ∀ lease ∈ live, lease.answered = true) :
    ({ s with live } : Leases).Sound := by
  have hsame : ({ s with live } : Leases).ids = s.ids := by rw [ids, ids, hids]
  refine ⟨?_, hheld, h.owed, ?_, fun hyes => ⟨(h.closed hyes).1, hclosed hyes⟩⟩
  · rw [hsame]
    exact h.distinct
  · rw [hsame]
    exact h.unused

/-- The holder of an id uses it and keeps it. -/
theorem keep (h : s.Sound) {lease : Lease} {pool : StreamPool} (hlease : lease ∈ s.live)
    (hpool : AgreesOff lease.id s.pool pool) (hself : Held pool lease) :
    ({ s with pool } : Leases).Sound := by
  refine ⟨h.distinct, ?_, ?_, ?_, ?_⟩
  · intro other hother
    by_cases hid : other.id = lease.id
    · rw [h.eq_of_id hlease hother hid]
      exact hself
    · exact (h.held other hother).of_agrees (hpool.agreesAt hid)
  · intro i hi
    exact (h.owed i hi).of_agrees (hpool.agreesAt (h.ne_of_abandoned hlease hi))
  · intro i hi
    have hne : i ≠ lease.id := fun heq => hi (heq ▸ id_mem hlease)
    exact (h.unused i hi).of_agrees (hpool.agreesAt hne)
  · intro hclosed
    rw [hpool.closed] at hclosed
    exact h.closed hclosed

/-- The holder of an id gives it up, and it is abandoned or unused from then on. -/
theorem giveUp (h : s.Sound) {place : Nat} {lease : Lease} {pool : StreamPool}
    {abandoned : List Nat} (hplace : s.live[place]? = some lease)
    (hpool : AgreesOff lease.id s.pool pool)
    (hself : abandoned = lease.id :: s.abandoned ∧ pool.closed = false ∧ Owed pool lease.id ∨
      abandoned = s.abandoned ∧ Unused pool lease.id) :
    (Leases.mk pool (s.live.eraseIdx place) abandoned).Sound := by
  have hperm := perm_ids hplace
  obtain ⟨hnot, hrest⟩ := List.nodup_cons.mp (hperm.nodup_iff.mp h.distinct)
  have hheld : ∀ other ∈ s.live.eraseIdx place, Held pool other := by
    intro other hother
    have hne : other.id ≠ lease.id := by
      intro heq
      exact hnot (heq ▸ List.mem_append_left _ (List.mem_map_of_mem hother))
    exact (h.held other (List.mem_of_mem_eraseIdx hother)).of_agrees (hpool.agreesAt hne)
  have howed : ∀ i ∈ s.abandoned, Owed pool i := by
    intro i hi
    have hne : i ≠ lease.id := fun heq => hnot (heq ▸ List.mem_append_right _ hi)
    exact (h.owed i hi).of_agrees (hpool.agreesAt hne)
  have hunused : ∀ i, i ≠ lease.id → i ∉ (s.live.eraseIdx place).map Lease.id ++ s.abandoned →
      Unused pool i := by
    intro i hne hi
    have hold : i ∉ s.ids := by
      rw [hperm.mem_iff, List.mem_cons, not_or]
      exact ⟨hne, hi⟩
    exact (h.unused i hold).of_agrees (hpool.agreesAt hne)
  rcases hself with ⟨rfl, hopen, hself⟩ | ⟨rfl, hself⟩
  · have hmoved : ((s.live.eraseIdx place).map Lease.id ++ lease.id :: s.abandoned).Perm
        (lease.id :: ((s.live.eraseIdx place).map Lease.id ++ s.abandoned)) := List.perm_middle
    refine ⟨hmoved.nodup_iff.mpr (List.nodup_cons.mpr ⟨hnot, hrest⟩), hheld,
      List.forall_mem_cons.mpr ⟨hself, howed⟩, ?_, ?_⟩
    · intro i hi
      rw [ids, hmoved.mem_iff, List.mem_cons, not_or] at hi
      exact hunused i hi.1 hi.2
    · intro hclosed
      rw [hopen] at hclosed
      cases hclosed
  · refine ⟨hrest, hheld, howed, ?_, ?_⟩
    · intro i hi
      by_cases heq : i = lease.id
      · exact heq ▸ hself
      · exact hunused i heq hi
    · intro hclosed
      rw [hpool.closed] at hclosed
      obtain ⟨hnone, hall⟩ := h.closed hclosed
      exact ⟨hnone, fun other hother => hall other (List.mem_of_mem_eraseIdx hother)⟩

/-! ## Every use -/

theorem new (size : Nat) : (Leases.new size).Sound where
  distinct := List.nodup_nil
  held lease h := by cases h
  owed id h := by cases h
  unused id _ := by
    have hsize : (Leases.new size).pool.size = min (max size 1) maxStreams := Array.size_replicate
    refine ⟨?_, ?_⟩
    · rw [hsize]
      simp [Leases.new, StreamPool.new, Nat.testBit_two_pow_sub_one]
    · simp only [Leases.new, StreamPool.new, StreamPool.slot, Array.getD_eq_getD_getElem?,
        Array.getElem?_replicate]
      split <;> rfl
  closed h := by cases h

theorem allocate (h : s.Sound) : (s.apply .allocate).Sound := by
  rcases s.pool.allocate_cases with ⟨_, hp⟩ | ⟨_, _, hp⟩ | ⟨id, hopen, hbit, hp⟩
  · rw [apply, hp]
    exact h
  · rw [apply, hp]
    exact h
  have happly : s.apply .allocate = { s with
      pool := (s.pool.claim id).setSlot id .waiting
      live := ⟨id, false, false⟩ :: s.live } := by
    rw [apply, hp]
  have hnew := h.not_mem_of_bit hbit
  have hlt := h.lt_size_of_bit hbit
  have hagrees : AgreesOff id s.pool ((s.pool.claim id).setSlot id .waiting) :=
    (AgreesOff.claim hbit).trans (.setSlot _ _ _)
  rw [happly]
  refine ⟨?_, ?_, ?_, ?_, ?_⟩
  · exact List.nodup_cons.mpr ⟨hnew, h.distinct⟩
  · intro lease hmem
    rcases List.mem_cons.mp hmem with rfl | hold
    · refine ⟨?_, ?_, ?_⟩
      · rw [hagrees.size]
        exact hlt
      · simp [StreamPool.testBit_claim id hbit]
      · have hslot : ((s.pool.claim id).setSlot id .waiting).slot id = .waiting :=
          StreamPool.slot_setSlot_self _ hlt
        show Occupied false (((s.pool.claim id).setSlot id .waiting).slot id)
        rw [hslot]
        rfl
    · have hne : lease.id ≠ id := fun heq => hnew (heq ▸ id_mem hold)
      exact (h.held lease hold).of_agrees (hagrees.agreesAt hne)
  · intro i hmem
    have hne : i ≠ id := fun heq => hnew (heq ▸ abandoned_mem hmem)
    exact (h.owed i hmem).of_agrees (hagrees.agreesAt hne)
  · intro i hmem
    have hne : i ≠ id := fun heq => hmem (heq ▸ List.mem_cons_self ..)
    have hold : i ∉ s.ids := fun hold => hmem (List.mem_cons_of_mem id hold)
    exact (h.unused i hold).of_agrees (hagrees.agreesAt hne)
  · intro hclosed
    rw [hagrees.closed, hopen] at hclosed
    cases hclosed

theorem setSent (h : s.Sound) (place : Nat) : (s.apply (.setSent place)).Sound := by
  rw [apply]
  cases hplace : s.live[place]? with
  | none => exact h
  | some lease =>
    obtain ⟨hlt, rfl⟩ := List.getElem?_eq_some_iff.mp hplace
    have hlease : s.live[place] ∈ s.live := List.getElem_mem hlt
    have hids : (s.live.set place { s.live[place] with sent := true }).map Lease.id =
        s.live.map Lease.id := by
      have hself : place < (s.live.map Lease.id).length := by simpa using hlt
      rw [List.map_set, ← List.set_getElem_self hself, List.getElem_map]
      simp
    refine h.relabel hids ?_ ?_
    · intro other hother
      rcases List.mem_or_eq_of_mem_set hother with hold | rfl
      · exact h.held other hold
      · obtain ⟨hsmall, hbit, hslot⟩ := h.held _ hlease
        exact ⟨hsmall, hbit, hslot⟩
    · intro hclosed other hother
      rcases List.mem_or_eq_of_mem_set hother with hold | rfl
      · exact (h.closed hclosed).2 other hold
      · have hanswered := (h.closed hclosed).2 _ hlease
        exact hanswered

theorem response (h : s.Sound) (place : Nat) : (s.apply (.response place)).Sound := by
  rw [apply]
  cases hplace : s.live[place]? with
  | none => exact h
  | some lease =>
    have hlease : lease ∈ s.live := List.mem_of_getElem? hplace
    obtain ⟨hsmall, hbit, hslot⟩ := h.held lease hlease
    rcases s.pool.response_cases lease.id with ⟨⟨result, hcompleted⟩, hp⟩ | hp
    · simp only [hp]
      refine h.keep hlease (.setSlot _ _ _) ⟨?_, hbit, ?_⟩
      · rw [StreamPool.size_setSlot]
        exact hsmall
      · rw [hcompleted] at hslot
        rw [StreamPool.slot_setSlot_self _ hsmall]
        exact hslot
    · simp only [hp]
      exact h

theorem drop (h : s.Sound) (place : Nat) : (s.apply (.drop place)).Sound := by
  rw [apply]
  cases hplace : s.live[place]? with
  | none => exact h
  | some lease =>
    have hlease : lease ∈ s.live := List.mem_of_getElem? hplace
    have hheld := h.held lease hlease
    have hleave := leave_eq hheld fun hclosed => (h.closed hclosed).2 lease hlease
    simp only [hleave, give]
    cases habandoned : lease.sent && !lease.answered with
    | true =>
      have hopen : s.pool.closed = false := by
        cases hclosed : s.pool.closed with
        | false => rfl
        | true => simp [(h.closed hclosed).2 lease hlease] at habandoned
      have howed : Owed (s.pool.setSlot lease.id .abandoned) lease.id :=
        ⟨hheld.bit, StreamPool.slot_setSlot_self _ hheld.small⟩
      exact h.giveUp hplace (.setSlot _ _ _) (.inl ⟨rfl, hopen, howed⟩)
    | false =>
      exact h.giveUp hplace (AgreesOff.setSlot _ _ _).release
        (.inr ⟨rfl, unused_release hheld.small⟩)

theorem complete (h : s.Sound) (e : Envelope) : (s.apply (.complete e)).Sound := by
  have hagrees := AgreesOff.complete s.pool e
  have hids : (s.live.map (hear e.stream.toInt)).map Lease.id = s.live.map Lease.id := by
    rw [List.map_map]
    exact List.map_congr_left fun _ _ => rfl
  refine ⟨?_, ?_, ?_, ?_, ?_⟩
  · rw [ids, apply, hids]
    exact h.distinct.sublist ((List.Sublist.refl _).append List.filter_sublist)
  · intro lease hmem
    obtain ⟨old, hold, rfl⟩ := List.mem_map.mp hmem
    have hheld := h.held old hold
    by_cases hstream : (old.id : Int) = e.stream.toInt
    · have hheard : hear e.stream.toInt old = { old with answered := true } := by
        simp [hear, hstream]
      rw [hheard]
      exact hheld.complete hstream.symm
    · have hsame : hear e.stream.toInt old = old := by
        rw [hear, beq_false_of_ne hstream, Bool.or_false]
      rw [hsame]
      exact hheld.of_agrees (s.pool.complete_of_ne old.id (Ne.symm hstream))
  · intro i hi
    obtain ⟨hold, hstream⟩ := List.mem_filter.mp hi
    have hne : e.stream.toInt ≠ i := fun heq => by simp [heq] at hstream
    exact (h.owed i hold).of_agrees (s.pool.complete_of_ne i hne)
  · intro i hi
    rw [ids, apply, hids, List.mem_append, not_or, List.mem_filter] at hi
    obtain ⟨hlive, hi⟩ := hi
    by_cases howed : i ∈ s.abandoned
    · have hstream : e.stream.toInt = i := by
        by_contra hne
        exact hi ⟨howed, by simpa using Ne.symm hne⟩
      exact (h.owed i howed).complete hstream
    · have hunused := h.unused i fun hmem => (List.mem_append.mp hmem).elim hlive howed
      by_cases hstream : e.stream.toInt = i
      · exact hunused.complete hstream
      · exact hunused.of_agrees (s.pool.complete_of_ne i hstream)
  · intro hclosed
    obtain ⟨hnone, hall⟩ := h.closed (hagrees.closed ▸ hclosed)
    refine ⟨?_, fun lease hmem => ?_⟩
    · simp [apply, hnone]
    · obtain ⟨old, hold, rfl⟩ := List.mem_map.mp hmem
      simp [hear, hall old hold]

/-- Closing an open pool answers all that wait and gives back all that was abandoned. -/
theorem closeOpen (h : s.Sound) (fault : CallFault) (hopen : s.pool.closed = false) :
    (s.apply (.close fault)).Sound := by
  have hids : (s.apply (.close fault)).ids = s.live.map Lease.id := by
    simp [apply, ids]
  refine ⟨?_, ?_, ?_, ?_, ?_⟩
  · rw [hids]
    exact (List.nodup_append.mp h.distinct).1
  · intro lease hmem
    obtain ⟨old, hold, rfl⟩ := List.mem_map.mp hmem
    exact (h.held old hold).close fault hopen
  · intro i hi
    cases hi
  · intro i hi
    rw [hids] at hi
    by_cases howed : i ∈ s.abandoned
    · exact (h.owed i howed).close fault hopen
    · have hunused := h.unused i fun hmem => (List.mem_append.mp hmem).elim hi howed
      exact hunused.close fault hopen
  · intro _
    refine ⟨rfl, fun lease hmem => ?_⟩
    obtain ⟨old, _, rfl⟩ := List.mem_map.mp hmem
    rfl

theorem close (h : s.Sound) (fault : CallFault) : (s.apply (.close fault)).Sound := by
  cases hclosed : s.pool.closed with
  | false => exact h.closeOpen fault hclosed
  | true =>
    obtain ⟨hnone, hall⟩ := h.closed hclosed
    have hlive : (s.live.map fun lease => { lease with answered := true }) = s.live := by
      have heach : ∀ lease ∈ s.live, { lease with answered := true } = lease := by
        intro lease hmem
        rw [← hall lease hmem]
      rw [List.map_congr_left heach, List.map_id']
    have hsame : s.apply (.close fault) = s := by
      rw [apply, s.pool.close_of_closed fault hclosed, hlive, ← hnone]
    rw [hsame]
    exact h

/-- The ledger and the pool tell the same after any use. -/
theorem apply (h : s.Sound) (use : Use) : (s.apply use).Sound := by
  cases use with
  | allocate => exact h.allocate
  | setSent place => exact h.setSent place
  | complete e => exact h.complete e
  | response place => exact h.response place
  | drop place => exact h.drop place
  | close fault => exact h.close fault

theorem run (h : s.Sound) (uses : List Use) : (s.run uses).Sound := by
  induction uses generalizing s with
  | nil => exact h
  | cons use uses ih => exact ih (h.apply use)

end Sound

end Leases

end CqlClient
