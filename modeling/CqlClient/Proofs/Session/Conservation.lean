import CqlClient.Proofs.Session.Leases

/-!
# No stream id is lost

What follows from a ledger that tells the same as the pool:

* `Leases.Sound.conserved`: every id is available, given out or abandoned, and only one of these;
* `Leases.Sound.allocate_eq_noStream`: an id is refused only when there is none left;
* `Leases.Sound.all_free`, `Leases.run_drops`, `Leases.run_completes`: ids that are given up and
  answered are available again, all of them.
-/

namespace CqlClient

namespace Leases

open StreamPool (AgreesOff)

namespace Sound

variable {s : Leases}

/-! ## What the ledger says of the pool -/

theorem mem_ids_iff (h : s.Sound) {i : Nat} :
    i ∈ s.ids ↔ i < s.pool.size ∧ s.pool.available.testBit i = false := by
  constructor
  · intro hmem
    rcases List.mem_append.mp hmem with hlive | howed
    · obtain ⟨lease, hlease, rfl⟩ := List.mem_map.mp hlive
      exact ⟨(h.held lease hlease).small, (h.held lease hlease).bit⟩
    · exact ⟨StreamPool.lt_size_of_slot (h.owed i howed).slot nofun, (h.owed i howed).bit⟩
  · rintro ⟨hlt, hbit⟩
    by_contra hmem
    rw [(h.unused i hmem).bit] at hbit
    simp [hlt] at hbit

theorem slot_free_iff (h : s.Sound) {i : Nat} : s.pool.slot i = .free ↔ i ∉ s.ids := by
  constructor
  · intro hfree hmem
    rcases List.mem_append.mp hmem with hlive | howed
    · obtain ⟨lease, hlease, rfl⟩ := List.mem_map.mp hlive
      have hslot := (h.held lease hlease).slot
      rw [hfree] at hslot
      exact hslot
    · have hslot := (h.owed i howed).slot
      rw [hfree] at hslot
      cases hslot
  · intro hmem
    exact (h.unused i hmem).slot

theorem slot_abandoned_iff (h : s.Sound) {i : Nat} :
    s.pool.slot i = .abandoned ↔ i ∈ s.abandoned := by
  constructor
  · intro habandoned
    have hmem : i ∈ s.ids := by
      by_contra hmem
      have hslot := (h.unused i hmem).slot
      rw [habandoned] at hslot
      cases hslot
    rcases List.mem_append.mp hmem with hlive | howed
    · obtain ⟨lease, hlease, rfl⟩ := List.mem_map.mp hlive
      have hslot := (h.held lease hlease).slot
      rw [habandoned] at hslot
      exact hslot.elim
    · exact howed
  · intro howed
    exact (h.owed i howed).slot

/-- Every id is available, given out or abandoned, and only one of these. -/
theorem conserved (h : s.Sound) :
    (List.range s.pool.size).countP (s.pool.available.testBit ·) + s.live.length +
      s.abandoned.length = s.pool.size := by
  have hperm : ((List.range s.pool.size).filter fun i => ¬ s.pool.available.testBit i).Perm
      s.ids := by
    rw [List.perm_ext_iff_of_nodup (List.nodup_range.filter _) h.distinct]
    intro i
    simp [h.mem_ids_iff]
  have htaken := hperm.length_eq
  have hsplit := List.length_eq_countP_add_countP (s.pool.available.testBit ·)
    (l := List.range s.pool.size)
  rw [List.countP_eq_length_filter (l := List.range _) (p := fun i => decide ¬ _), htaken,
    List.length_range, ids, List.length_append, List.length_map] at hsplit
  omega

theorem allocate_eq_noStream (h : s.Sound) (hopen : s.pool.closed = false) :
    s.pool.allocate.1 = .error .noStream ↔
      s.live.length + s.abandoned.length = s.pool.size := by
  have hcount := h.conserved
  have hnone : s.pool.claim? = none ↔
      (List.range s.pool.size).countP (s.pool.available.testBit ·) = 0 := by
    simp [StreamPool.claim?_eq_none, List.countP_eq_zero]
  rcases s.pool.allocate_cases with ⟨hclosed, _⟩ | ⟨_, hclaim, hp⟩ | ⟨id, _, hbit, hp⟩
  · rw [hopen] at hclosed
    cases hclosed
  · rw [hp]
    have hzero := hnone.mp hclaim
    refine iff_of_true rfl ?_
    omega
  · rw [hp]
    have hsome : s.pool.claim? ≠ none := by
      rw [Ne, StreamPool.claim?_eq_none]
      intro hall
      rw [hall id (h.lt_size_of_bit hbit)] at hbit
      cases hbit
    have hpos := mt hnone.mpr hsome
    refine iff_of_false nofun ?_
    omega

/-- When no id is given out or abandoned, all of them are free. -/
theorem all_free (h : s.Sound) (hlive : s.live = []) (habandoned : s.abandoned = []) :
    s.pool.available = 2 ^ s.pool.size - 1 ∧ ∀ i, s.pool.slot i = .free := by
  have hunused : ∀ i, Unused s.pool i := by
    intro i
    refine h.unused i ?_
    rw [ids, hlive, habandoned]
    exact List.not_mem_nil
  refine ⟨?_, fun i => (hunused i).slot⟩
  apply Nat.eq_of_testBit_eq
  intro i
  rw [(hunused i).bit, Nat.testBit_two_pow_sub_one]

end Sound

/-! ## Pools in use -/

variable {s : Leases}

theorem size_apply (s : Leases) (use : Use) : (s.apply use).pool.size = s.pool.size := by
  cases use with
  | allocate =>
    rw [apply]
    rcases s.pool.allocate_cases with ⟨_, hp⟩ | ⟨_, _, hp⟩ | ⟨id, _, _, hp⟩
    · rw [hp]
    · rw [hp]
    · rw [hp]
      exact StreamPool.size_setSlot _ _ _
  | setSent place =>
    rw [apply]
    cases s.live[place]? <;> rfl
  | complete e => exact (AgreesOff.complete s.pool e).size
  | response place =>
    rw [apply]
    cases s.live[place]? with
    | none => rfl
    | some lease =>
      rcases s.pool.response_cases lease.id with ⟨_, hp⟩ | hp
      · simp [hp]
      · simp [hp]
  | drop place =>
    rw [apply]
    cases s.live[place]? with
    | none => rfl
    | some lease =>
      show (s.pool.leave lease.id lease.sent).size = _
      unfold StreamPool.leave
      rcases s.pool.vacate_cases lease.id lease.sent with ⟨_, _, _, hp⟩ | ⟨_, hp⟩
      · simp [hp]
      · simp [hp]
  | close fault =>
    cases hclosed : s.pool.closed with
    | false => exact (s.pool.close_of_open 0 fault hclosed).1
    | true => exact congrArg StreamPool.size (s.pool.close_of_closed fault hclosed)

theorem size_run (s : Leases) (uses : List Use) : (s.run uses).pool.size = s.pool.size := by
  induction uses generalizing s with
  | nil => rfl
  | cons use uses ih => exact (ih (s.apply use)).trans (s.size_apply use)

/-- Giving up every id leaves none given out, and abandons no other. -/
theorem run_drops (s : Leases) :
    let t := s.run (List.replicate s.live.length (.drop 0))
    t.live = [] ∧ ∀ id ∈ t.abandoned, id ∈ s.ids := by
  generalize hlength : s.live.length = n
  induction n generalizing s with
  | zero => exact ⟨List.length_eq_zero_iff.mp hlength, fun id => List.mem_append_right _⟩
  | succ n ih =>
    cases hlive : s.live with
    | nil => simp [hlive] at hlength
    | cons lease rest =>
      have hdrop : s.apply (.drop 0) = ⟨s.pool.leave lease.id lease.sent, rest, s.give lease⟩ := by
        simp [apply, hlive]
      have hrest : (s.apply (.drop 0)).live.length = n := by
        rw [hdrop]
        simpa [hlive] using hlength
      obtain ⟨hnone, hsub⟩ := ih (s.apply (.drop 0)) hrest
      refine ⟨hnone, fun id hid => ?_⟩
      have hmem := hsub id hid
      rw [hdrop, ids, List.mem_append] at hmem
      rw [ids, hlive, List.map_cons, List.cons_append, List.mem_cons, List.mem_append]
      rcases hmem with hlater | hgiven
      · exact .inr (.inl hlater)
      · unfold give at hgiven
        split at hgiven
        · rcases List.mem_cons.mp hgiven with hself | hold
          · exact .inl hself
          · exact .inr (.inr hold)
        · exact .inr (.inr hgiven)

/-- An abandoned id stays abandoned until an envelope comes for it. -/
theorem run_completes (s : Leases) (es : List Envelope) (hlive : s.live = []) :
    let t := s.run (es.map .complete)
    t.live = [] ∧ ∀ id ∈ t.abandoned, id ∈ s.abandoned ∧ ∀ e ∈ es, e.stream.toInt ≠ id := by
  induction es generalizing s with
  | nil => exact ⟨hlive, fun id hid => ⟨hid, nofun⟩⟩
  | cons e es ih =>
    obtain ⟨hnone, hsub⟩ := ih (s.apply (.complete e)) (by simp [apply, hlive])
    refine ⟨hnone, fun id hid => ?_⟩
    obtain ⟨hmem, hlater⟩ := hsub id hid
    obtain ⟨hold, hne⟩ := List.mem_filter.mp hmem
    exact ⟨hold, List.forall_mem_cons.mpr ⟨by simpa using Ne.symm (of_decide_eq_true hne), hlater⟩⟩

def AllFree (pool : StreamPool) : Prop :=
  pool.available = 2 ^ pool.size - 1 ∧ ∀ id, pool.slot id = .free

/-- Once all is given up and every id that was in use is answered, all is free. -/
theorem Sound.all_free_of_answered {s : Leases} (h : s.Sound) {es : List Envelope}
    (hall : ∀ id ∈ s.ids, ∃ e ∈ es, e.stream.toInt = id) :
    AllFree (s.run (List.replicate s.live.length (.drop 0) ++ es.map .complete)).pool := by
  obtain ⟨hnone, hsub⟩ := run_drops s
  obtain ⟨hlive, hleft⟩ := run_completes _ es hnone
  have hsplit : s.run (List.replicate s.live.length (.drop 0) ++ es.map .complete) =
      (s.run (List.replicate s.live.length (.drop 0))).run (es.map .complete) :=
    List.foldl_append
  rw [hsplit]
  refine ((h.run _).run _).all_free hlive ?_
  apply List.eq_nil_iff_forall_not_mem.mpr
  intro id hid
  obtain ⟨habandoned, hunheard⟩ := hleft id hid
  obtain ⟨e, he, hstream⟩ := hall id (hsub id habandoned)
  exact hunheard e he hstream

/-- However a pool is used, a bit is set exactly where the slot is free, and the slot is free
exactly where the id is neither given out nor abandoned; no id is given out twice, and none is lost:
what is available, given out and abandoned adds up, and all of it is available again when nothing is
given out and every abandoned id is answered, or the pool closed. -/
theorem run_accounted (size : Nat) (uses : List Use) :
    let s := (new size).run uses
    s.pool.size = min (max size 1) 32768 ∧
    (∀ id < s.pool.size,
      (s.pool.available.testBit id = true ↔ s.pool.slot id = .free) ∧
      (s.pool.slot id = .free ↔ (∀ lease ∈ s.live, lease.id ≠ id) ∧ id ∉ s.abandoned) ∧
      (s.pool.slot id = .abandoned ↔ id ∈ s.abandoned)) ∧
    (∀ id ≥ s.pool.size, s.pool.available.testBit id = false) ∧
    (s.live.map Lease.id).Nodup ∧
    (List.range s.pool.size).countP (s.pool.available.testBit ·) + s.live.length +
      s.abandoned.length = s.pool.size ∧
    (s.pool.closed = false →
      (s.pool.allocate.1 = .error .noStream ↔
        s.live.length + s.abandoned.length = s.pool.size)) ∧
    (s.live = [] → s.abandoned = [] ∨ s.pool.closed = true → AllFree s.pool) ∧
    ∀ es : List Envelope, (∀ id ∈ s.ids, ∃ e ∈ es, e.stream.toInt = id) →
      AllFree (s.run (List.replicate s.live.length (.drop 0) ++ es.map .complete)).pool := by
  intro s
  have hsound : s.Sound := (Sound.new size).run uses
  refine ⟨?size, ?each, ?beyond, ?distinct, hsound.conserved, hsound.allocate_eq_noStream, ?idle,
    ?answered⟩
  case size => exact (size_run _ uses).trans Array.size_replicate
  case each =>
    intro id hlt
    refine ⟨?_, ?_, hsound.slot_abandoned_iff⟩
    · rw [hsound.slot_free_iff, hsound.mem_ids_iff]
      simp [hlt]
    · rw [hsound.slot_free_iff, ids, List.mem_append, not_or, List.mem_map]
      simp
  case beyond =>
    intro id hle
    by_contra hbit
    have hlt := hsound.lt_size_of_bit (by simpa using hbit)
    omega
  case distinct => exact (List.nodup_append.mp hsound.distinct).1
  case idle =>
    intro hlive hdone
    rcases hdone with habandoned | hclosed
    · exact hsound.all_free hlive habandoned
    · exact hsound.all_free hlive (hsound.closed hclosed).1
  case answered =>
    intro es hall
    exact hsound.all_free_of_answered hall

/-- Of two ids one is abandoned; once its answer has come, and the other is given up unsent, both
are free. -/
theorem run_accounted_of_two :
    let s := (new 2).run [.allocate, .allocate, .setSent 0, .drop 0]
    s.pool.allocate.1 = .error .noStream ∧
      AllFree (s.run [.drop 0, .complete ⟨0x84, .none, 1, .ready, []⟩,
        .complete ⟨0x84, .none, 0, .ready, []⟩]).pool := by
  intro s
  obtain ⟨_, _, _, _, _, hfull, _, hanswered⟩ :=
    run_accounted 2 [.allocate, .allocate, .setSent 0, .drop 0]
  refine ⟨(hfull rfl).mpr rfl, ?_⟩
  refine hanswered [⟨0x84, .none, 1, .ready, []⟩, ⟨0x84, .none, 0, .ready, []⟩] ?_
  decide

end Leases

end CqlClient
