import CqlClient.Session.StreamPool

/-!
# Stream ids, one at a time

What each step of a pool does to the slot and to the availability of an id, and to every other id.

* `slot_setSlot`, `testBit_claim`, `testBit_release`: the three ways in which a pool changes;
* `complete_cases`, `sweep_cases`, `vacate_cases`, `response_cases`, `allocate_cases`: all that a
  step may do;
* `AgreesOff`: a step that concerns one id leaves the others as they are;
* `claim?_eq_some`: the id that is claimed was available.
-/

namespace CqlClient

namespace StreamPool

variable (p : StreamPool) (id i : Nat) (s : Slot)

/-! ## Slots -/

theorem slot_of_size_le {p : StreamPool} {id : Nat} (h : p.size ≤ id) : p.slot id = .free := by
  rw [slot, Array.getD_eq_getD_getElem?, Array.getElem?_eq_none h]
  rfl

theorem lt_size_of_slot {p : StreamPool} {id : Nat} {s : Slot} (h : p.slot id = s)
    (hs : s ≠ .free) : id < p.size :=
  Nat.lt_of_not_le fun hle => hs (h.symm.trans (slot_of_size_le hle))

@[simp] theorem size_setSlot : (p.setSlot id s).size = p.size := Array.size_setIfInBounds

@[simp] theorem closed_setSlot : (p.setSlot id s).closed = p.closed := rfl

@[simp] theorem available_setSlot : (p.setSlot id s).available = p.available := rfl

theorem slot_setSlot :
    (p.setSlot id s).slot i = if i = id ∧ id < p.size then s else p.slot i := by
  simp only [slot, setSlot, Array.getD_eq_getD_getElem?, Array.getElem?_setIfInBounds]
  by_cases h : id = i
  · subst h
    by_cases hlt : id < p.size
    · simp [show id < p.slots.size from hlt, hlt]
    · simp [show ¬ id < p.slots.size from hlt, hlt]
  · simp [h, Ne.symm h]

@[simp] theorem slot_setSlot_self {p : StreamPool} {id : Nat} (h : id < p.size) :
    (p.setSlot id s).slot id = s := by
  simp [slot_setSlot, h]

@[simp] theorem slot_setSlot_of_ne {id i : Nat} (h : i ≠ id) :
    (p.setSlot id s).slot i = p.slot i := by
  simp [slot_setSlot, h]

/-! ## Availability -/

@[simp] theorem size_claim : (p.claim id).size = p.size := rfl

@[simp] theorem closed_claim : (p.claim id).closed = p.closed := rfl

@[simp] theorem slot_claim : (p.claim id).slot i = p.slot i := rfl

@[simp] theorem size_release : (p.release id).size = p.size := rfl

@[simp] theorem closed_release : (p.release id).closed = p.closed := rfl

@[simp] theorem slot_release : (p.release id).slot i = p.slot i := rfl

theorem testBit_claim {p : StreamPool} {id : Nat} (h : p.available.testBit id = true) :
    (p.claim id).available.testBit i = (p.available.testBit i && i != id) := by
  rw [claim, Nat.testBit_xor, Nat.testBit_two_pow]
  by_cases hi : id = i
  · subst hi
    simp [h]
  · simp [hi, Ne.symm hi]

theorem testBit_release :
    (p.release id).available.testBit i = (p.available.testBit i || i == id) := by
  rw [release, Nat.testBit_or, Nat.testBit_two_pow]
  by_cases hi : id = i
  · simp [hi]
  · simp [hi, Ne.symm hi]

theorem leastFrom?_eq_some {available count start id : Nat}
    (h : leastFrom? available count start = some id) : available.testBit id = true := by
  induction count generalizing start with
  | zero => cases h
  | succ count ih =>
    rw [leastFrom?] at h
    split at h
    · rename_i hbit
      cases h
      exact hbit
    · exact ih h

theorem leastFrom?_eq_none {available count start : Nat} :
    leastFrom? available count start = none ↔
      ∀ i, start ≤ i → i < start + count → available.testBit i = false := by
  induction count generalizing start with
  | zero =>
    refine iff_of_true rfl fun i hle hlt => ?_
    omega
  | succ count ih =>
    rw [leastFrom?]
    split
    · rename_i hbit
      refine iff_of_false nofun fun h => ?_
      have hfirst := h start (Nat.le_refl _) (by omega)
      rw [hbit] at hfirst
      cases hfirst
    · rename_i hbit
      rw [ih]
      constructor
      · intro h i hle hlt
        by_cases heq : i = start
        · rw [heq]
          simpa using hbit
        · exact h i (by omega) (by omega)
      · intro h i hle hlt
        exact h i (by omega) (by omega)

theorem claim?_eq_none : p.claim? = none ↔ ∀ i, i < p.size → p.available.testBit i = false := by
  simp [claim?, leastFrom?_eq_none]

theorem claim?_eq_some {p' : StreamPool} (h : p.claim? = some (id, p')) :
    p.available.testBit id = true ∧ p' = p.claim id := by
  obtain ⟨id', hid, hp⟩ := Option.map_eq_some_iff.mp h
  cases hp
  exact ⟨leastFrom?_eq_some hid, rfl⟩

/-! ## Steps -/

theorem complete_cases (e : Envelope) :
    (p.complete e).2 = p ∧ (e.stream < 0 ∨ p.slot e.stream.toInt.toNat = .free ∨
        p.slot e.stream.toInt.toNat = .consumed) ∨
      p.slot e.stream.toInt.toNat = .waiting ∧
        (p.complete e).2 = p.setSlot e.stream.toInt.toNat (.completed (.ok e)) ∨
      (∃ result, p.slot e.stream.toInt.toNat = .completed result) ∧
        (p.complete e).2 = p.setSlot e.stream.toInt.toNat
          (.completed (.error (.violation (.completedTwice e.stream)))) ∨
      p.slot e.stream.toInt.toNat = .abandoned ∧
        (p.complete e).2 =
          (p.setSlot e.stream.toInt.toNat .free).release e.stream.toInt.toNat := by
  unfold complete
  generalize e.stream.toInt.toNat = id
  split
  · exact .inl ⟨rfl, .inl ‹_›⟩
  · cases h : p.slot id <;> simp [h]

/-- An envelope is the result of its stream, unless there is one. -/
theorem slot_complete_self {e : Envelope} (h : e.stream.toInt = id) :
    (p.slot id = .waiting → (p.complete e).2.slot id = .completed (.ok e)) ∧
      ∀ result, p.slot id = .completed result →
        (p.complete e).2.slot id = .completed (.error (.violation (.completedTwice e.stream))) := by
  have hneg : ¬ e.stream < 0 := by
    rw [Int16.lt_iff_toInt_lt, h]
    exact Int.not_lt.mpr (Int.natCast_nonneg id)
  have hid : e.stream.toInt.toNat = id := by rw [h, Int.toNat_natCast]
  simp only [complete, if_neg hneg, hid]
  constructor
  · intro hslot
    have hsize : id < p.size := lt_size_of_slot hslot (by simp)
    simp only [hslot, slot_setSlot_self _ hsize]
  · intro result hslot
    have hsize : id < p.size := lt_size_of_slot hslot (by simp)
    simp only [hslot, slot_setSlot_self _ hsize]

theorem sweep_cases (fault : CallFault) :
    p.slot id = .waiting ∧ p.sweep fault id = p.setSlot id (.completed (.error fault)) ∨
      p.slot id = .abandoned ∧ p.sweep fault id = (p.setSlot id .free).release id ∨
      p.slot id ≠ .waiting ∧ p.slot id ≠ .abandoned ∧ p.sweep fault id = p := by
  unfold sweep
  cases h : p.slot id <;> simp

theorem vacate_cases (sent : Bool) :
    p.slot id = .waiting ∧ sent = true ∧ p.closed = false ∧
        p.vacate id sent = (false, p.setSlot id .abandoned) ∨
      (p.slot id = .waiting → sent = true → p.closed = true) ∧
        p.vacate id sent = (true, p.setSlot id .free) := by
  unfold vacate
  cases h : p.slot id <;> cases sent <;> cases hc : p.closed <;> simp

theorem response_eq_some {p p' : StreamPool} {id : Nat} {result : Except CallFault Envelope}
    (h : p.response id = (some result, p')) :
    p.slot id = .completed result ∧ p' = p.setSlot id .consumed ∨
      result = .error .closed ∧ p' = p := by
  unfold response at h
  cases hs : p.slot id <;> rw [hs] at h <;> cases h <;> simp

theorem response_cases :
    (∃ result, p.slot id = .completed result) ∧ (p.response id).2 = p.setSlot id .consumed ∨
      (p.response id).2 = p := by
  unfold response
  cases h : p.slot id <;> simp

/-- Taken in one go, an id that was claimed is never given back at once. -/
theorem allocate_cases :
    p.closed = true ∧ p.allocate = (.error .closed, p) ∨
      p.closed = false ∧ p.claim? = none ∧ p.allocate = (.error .noStream, p) ∨
      ∃ id, p.closed = false ∧ p.available.testBit id = true ∧
        p.allocate = (.ok id, (p.claim id).setSlot id .waiting) := by
  unfold allocate
  cases hclosed : p.closed with
  | true => exact .inl ⟨rfl, rfl⟩
  | false =>
    cases hclaim : p.claim? with
    | none => exact .inr (.inl ⟨rfl, rfl, rfl⟩)
    | some claimed =>
      obtain ⟨id, p'⟩ := claimed
      obtain ⟨hbit, rfl⟩ := p.claim?_eq_some id hclaim
      have hstill : ((p.claim id).arm id).closed = false := hclosed
      refine .inr (.inr ⟨id, rfl, hbit, ?_⟩)
      simp only [hstill, Bool.false_eq_true, if_false]
      rfl

/-- The first id of a pool is 0. -/
theorem allocate_new (count : Nat) :
    ∃ pool, (new count).allocate = (.ok 0, pool) ∧ pool.slot 0 = .waiting ∧
      pool.closed = false := by
  have hsize : (new count).size = min (max count 1) maxStreams := by
    simp [new, size]
  have hpos : 0 < min (max count 1) maxStreams := by
    have hmax : 0 < maxStreams := by decide
    omega
  have hbit : (new count).available.testBit 0 = true := by
    rw [new, Nat.testBit_two_pow_sub_one]
    exact decide_eq_true hpos
  have hclaim : (new count).claim? = some (0, (new count).claim 0) := by
    obtain ⟨others, hothers⟩ := Nat.exists_eq_succ_of_ne_zero (Nat.ne_of_gt (hsize ▸ hpos))
    rw [claim?, hothers, leastFrom?, if_pos hbit]
    rfl
  refine ⟨((new count).claim 0).setSlot 0 .waiting, ?_, ?_, rfl⟩
  · rw [allocate, hclaim]
    rfl
  · exact slot_setSlot_self .waiting (hsize ▸ hpos)

/-! ## The other ids -/

/-- The two pools differ at most in what they say of `id`. -/
structure AgreesOff (id : Nat) (p p' : StreamPool) : Prop where
  size : p'.size = p.size
  closed : p'.closed = p.closed
  slot : ∀ i, i ≠ id → p'.slot i = p.slot i
  bit : ∀ i, i ≠ id → p'.available.testBit i = p.available.testBit i

/-- The two pools say the same of `id`. -/
structure AgreesAt (id : Nat) (p p' : StreamPool) : Prop where
  size : p'.size = p.size
  slot : p'.slot id = p.slot id
  bit : p'.available.testBit id = p.available.testBit id

theorem AgreesOff.agreesAt {p p' : StreamPool} {id i : Nat} (h : AgreesOff id p p') (hi : i ≠ id) :
    AgreesAt i p p' :=
  ⟨h.size, h.slot i hi, h.bit i hi⟩

theorem AgreesOff.refl : AgreesOff id p p := ⟨rfl, rfl, fun _ _ => rfl, fun _ _ => rfl⟩

theorem AgreesOff.trans {p p' p'' : StreamPool} {id : Nat} (h : AgreesOff id p p')
    (h' : AgreesOff id p' p'') : AgreesOff id p p'' :=
  ⟨h'.size.trans h.size, h'.closed.trans h.closed,
    fun i hi => (h'.slot i hi).trans (h.slot i hi), fun i hi => (h'.bit i hi).trans (h.bit i hi)⟩

theorem AgreesOff.setSlot : AgreesOff id p (p.setSlot id s) :=
  ⟨size_setSlot p id s, rfl, fun _ h => slot_setSlot_of_ne p s h, fun _ _ => rfl⟩

theorem AgreesOff.claim {p : StreamPool} {id : Nat} (h : p.available.testBit id = true) :
    AgreesOff id p (p.claim id) :=
  ⟨rfl, rfl, fun _ _ => rfl, fun i hi => by simp [testBit_claim i h, hi]⟩

theorem AgreesOff.release {p p' : StreamPool} {id : Nat} (h : AgreesOff id p p') :
    AgreesOff id p (p'.release id) :=
  ⟨h.size, h.closed, h.slot, fun i hi => by simp [testBit_release, hi, h.bit i hi]⟩

theorem AgreesOff.complete (e : Envelope) :
    AgreesOff e.stream.toInt.toNat p (p.complete e).2 := by
  rcases p.complete_cases e with ⟨h, _⟩ | ⟨_, h⟩ | ⟨_, h⟩ | ⟨_, h⟩
  · rw [h]
    exact .refl p _
  · rw [h]
    exact .setSlot p _ _
  · rw [h]
    exact .setSlot p _ _
  · rw [h]
    exact (AgreesOff.setSlot p _ _).release

theorem closed_complete (e : Envelope) : (p.complete e).2.closed = p.closed :=
  (AgreesOff.complete p e).closed

/-- An envelope of another stream. -/
theorem complete_of_ne {e : Envelope} (h : e.stream.toInt ≠ id) :
    AgreesAt id p (p.complete e).2 := by
  by_cases hneg : e.stream < 0
  · rw [complete, if_pos hneg]
    exact ⟨rfl, rfl, rfl⟩
  · have hle : 0 ≤ e.stream.toInt := by
      rw [Int16.lt_iff_toInt_lt] at hneg
      exact Int.not_lt.mp hneg
    exact (AgreesOff.complete p e).agreesAt (by omega)

theorem slot_complete_of_ne {e : Envelope} (h : e.stream.toInt ≠ id) :
    (p.complete e).2.slot id = p.slot id :=
  (p.complete_of_ne id h).slot

theorem AgreesOff.sweep (fault : CallFault) : AgreesOff id p (p.sweep fault id) := by
  rcases p.sweep_cases id fault with ⟨_, h⟩ | ⟨_, h⟩ | ⟨_, _, h⟩
  · rw [h]
    exact .setSlot p _ _
  · rw [h]
    exact (AgreesOff.setSlot p _ _).release
  · rw [h]
    exact .refl p _

theorem AgreesOff.vacate (sent : Bool) : AgreesOff id p (p.vacate id sent).2 := by
  rcases p.vacate_cases id sent with ⟨_, _, _, h⟩ | ⟨_, h⟩
  · rw [h]
    exact .setSlot p _ _
  · rw [h]
    exact .setSlot p _ _

theorem AgreesOff.response {p p' : StreamPool} {id : Nat} {result : Except CallFault Envelope}
    (h : p.response id = (some result, p')) : AgreesOff id p p' := by
  rcases response_eq_some h with ⟨_, rfl⟩ | ⟨_, rfl⟩
  · exact .setSlot _ _ _
  · exact .refl _ _

/-! ## Closing -/

end StreamPool

namespace Slot

/-- What closing the pool makes of a slot. -/
def swept (fault : CallFault) : Slot → Slot
  | waiting => completed (.error fault)
  | abandoned => free
  | slot => slot

def isAbandoned : Slot → Bool
  | abandoned => true
  | _ => false

end Slot

namespace StreamPool

variable (p : StreamPool) (id i : Nat)

theorem slot_sweep (fault : CallFault) :
    (p.sweep fault id).slot i = if i = id then (p.slot i).swept fault else p.slot i := by
  by_cases hi : i = id
  · subst hi
    rw [if_pos rfl]
    rcases p.sweep_cases i fault with ⟨hslot, hp⟩ | ⟨hslot, hp⟩ | ⟨hwaiting, habandoned, hp⟩
    · have hlt := lt_size_of_slot hslot nofun
      simp [hp, hslot, hlt, Slot.swept]
    · have hlt := lt_size_of_slot hslot nofun
      simp [hp, hslot, hlt, Slot.swept]
    · rw [hp]
      cases h : p.slot i <;> simp_all [Slot.swept]
  · rw [if_neg hi]
    exact (AgreesOff.sweep p id fault).slot i hi

theorem testBit_sweep (fault : CallFault) :
    (p.sweep fault id).available.testBit i =
      (p.available.testBit i || i == id && (p.slot i).isAbandoned) := by
  by_cases hi : i = id
  · subst hi
    rcases p.sweep_cases i fault with ⟨hslot, hp⟩ | ⟨hslot, hp⟩ | ⟨_, habandoned, hp⟩
    · simp [hp, hslot, Slot.isAbandoned]
    · simp [hp, hslot, testBit_release, Slot.isAbandoned]
    · rw [hp]
      cases h : p.slot i <;> simp_all [Slot.isAbandoned]
  · have hbit := (AgreesOff.sweep p id fault).bit i hi
    simp [hbit, hi]

/-- Each id of a list is swept once, and the others not at all. -/
theorem foldl_sweep (fault : CallFault) {ids : List Nat} (hdistinct : ids.Nodup) :
    let swept := ids.foldl (sweep fault) p
    swept.size = p.size ∧ swept.closed = p.closed ∧
      swept.slot i = (if i ∈ ids then (p.slot i).swept fault else p.slot i) ∧
      swept.available.testBit i =
        (p.available.testBit i || decide (i ∈ ids) && (p.slot i).isAbandoned) := by
  induction ids generalizing p with
  | nil => simp
  | cons id ids ih =>
    obtain ⟨hnot, hrest⟩ := List.nodup_cons.mp hdistinct
    obtain ⟨hsize, hclosed, hslot, hbit⟩ := ih (p.sweep fault id) hrest
    have hagrees := AgreesOff.sweep p id fault
    refine ⟨hsize.trans hagrees.size, hclosed.trans hagrees.closed, ?_, ?_⟩
    · rw [List.foldl_cons, hslot, slot_sweep]
      by_cases hi : i = id
      · simp [hi, hnot]
      · simp [hi]
    · rw [List.foldl_cons, hbit, slot_sweep, testBit_sweep]
      by_cases hi : i = id
      · simp [hi, hnot]
      · simp [hi, beq_false_of_ne hi]

theorem close_of_closed (fault : CallFault) (h : p.closed = true) : p.close fault = p := if_pos h

/-- Closing an open pool sweeps every id. -/
theorem close_of_open (fault : CallFault) (h : p.closed = false) :
    (p.close fault).size = p.size ∧ (p.close fault).closed = true ∧
      (p.close fault).slot i = (p.slot i).swept fault ∧
      (p.close fault).available.testBit i =
        (p.available.testBit i || (p.slot i).isAbandoned) := by
  have hopen : ¬ p.closed = true := by simp [h]
  rw [close, if_neg hopen]
  obtain ⟨hsize, hclosed, hslot, hbit⟩ := foldl_sweep p.markClosed i fault List.nodup_range
  refine ⟨hsize, hclosed, hslot.trans ?_, hbit.trans ?_⟩
  · by_cases hi : i < p.size
    · rw [if_pos (List.mem_range.mpr hi)]
      rfl
    · rw [if_neg (by simpa using hi), slot_of_size_le (Nat.not_lt.mp hi)]
      exact slot_of_size_le (Nat.not_lt.mp hi)
  · by_cases hi : i < p.size
    · simp only [List.mem_range, hi, decide_true, Bool.true_and]
      rfl
    · simp only [List.mem_range, hi, decide_false, Bool.false_and,
        slot_of_size_le (Nat.not_lt.mp hi)]
      rfl

theorem closed_close (fault : CallFault) : (p.close fault).closed = true := by
  cases hclosed : p.closed with
  | true => rwa [p.close_of_closed fault hclosed]
  | false => exact (p.close_of_open 0 fault hclosed).2.1

end StreamPool

end CqlClient
