import CqlClient.Proofs.Session.Exchange

/-!
# Answers and the requests that take them

* `Faithful.send`, `Faithful.answer`, `Faithful.deliver`, `Faithful.takeAnswer`: the steps of an
  answer keep an exchange faithful, from the request to whoever takes it;
* `Faithful.quiet`: so do all steps that have nothing to do with answers;
* `taken_own_answers`: in every run, a request takes no answer but its own, and no answer is taken
  twice.
-/

namespace CqlClient

namespace Exchange

open Function Traffic

variable {x y : Exchange} {q q' id : Nat} {phase phase' : Phase}

namespace Faithful

/-! ## Steps of the owner of an id -/

theorem arm (h : x.Faithful) (hc : x.traffic.caller q = some ⟨id, .claimed⟩) :
    Faithful { x with traffic := x.traffic.put q ⟨id, .armed⟩ (x.traffic.pool.arm id) } := by
  have hun := h.unasked_of_phase hc rfl
  have hslot : (x.traffic.pool.arm id).slot id = .waiting :=
    StreamPool.slot_setSlot_self _ (h.sound.lt_size hc rfl)
  refine h.ownerStep hc (.setSlot _ _ _) (Step.sound (.arm hc) h.sound) (fun hf => by cases hf) ?_
  refine orderly_of_owner (fun _ _ => h.waits_put hc rfl) ?due (fun _ _ _ _ => h.single_put hc)
    (fun _ _ => .inl hslot) ?result (fun _ hf => by cases hf)
  case due =>
    intro q' phase'' hc' hdue
    rcases caller_put_eq_some hc hc' with ⟨rfl, _⟩ | ⟨_, hold⟩
    · rw [hun] at hdue
      cases hdue
    · obtain ⟨hclosed, hall⟩ := h.due_of_unasked hc rfl hun hold hdue
      refine .inr (.inr ⟨hclosed, fun q'' phase₂ hc'' hholds => ?_⟩)
      rcases caller_put_eq_some hc hc'' with ⟨_, heq⟩ | ⟨_, hold''⟩
      · cases heq
        cases hholds
      · exact hall q'' phase₂ hold'' hholds
  case result =>
    intro e hf
    cases hf

/-- An id is given out only if the pool was open after it was armed, so that no answer was due. -/
theorem recheck (h : x.Faithful) (hc : x.traffic.caller q = some ⟨id, .armed⟩)
    (hopen : x.traffic.pool.closed = false) :
    Faithful { x with traffic := x.traffic.put q ⟨id, .held⟩ x.traffic.pool } := by
  have hun := h.unasked_of_phase hc rfl
  have hslot : x.traffic.pool.slot id = .waiting := by
    rcases (h.orderly id).unasked q _ hc rfl hun with hslot | hclosed
    · exact hslot
    · rw [hopen] at hclosed
      cases hclosed
  refine h.ownerStep hc (.refl _ _) (h.sound.ownerMoves hc rfl rfl rfl) (fun hf => by cases hf) ?_
  refine orderly_of_owner (fun _ _ => h.waits_put hc rfl) ?due (fun _ _ _ _ => h.single_put hc)
    (fun _ _ => .inl hslot) ?result ?spent
  case due =>
    intro q' phase'' hc' hdue
    rcases caller_put_eq_some hc hc' with ⟨rfl, _⟩ | ⟨_, hold⟩
    · rw [hun] at hdue
      cases hdue
    · obtain ⟨hclosed, _⟩ := h.due_of_unasked hc rfl hun hold hdue
      rw [hopen] at hclosed
      cases hclosed
  case result =>
    intro e _ hs
    cases hslot.symm.trans hs
  case spent =>
    intro r _ hr hreq
    exact absurd hreq (h.ne_of_unasked hun hr)

/-- A request that is given up while its answer is due leaves the id to that answer. -/
theorem abandon (h : x.Faithful) (hc : x.traffic.caller q = some ⟨id, phase⟩)
    (hmay : phase.mayLeave = true)
    (hsound : (x.traffic.put q ⟨id, .gone⟩ (x.traffic.pool.setSlot id .abandoned)).Sound) :
    Faithful { x with
      traffic := x.traffic.put q ⟨id, .gone⟩ (x.traffic.pool.setSlot id .abandoned) } := by
  have ho := owns_of_mayLeave hmay
  have hslot : (x.traffic.pool.setSlot id .abandoned).slot id = .abandoned :=
    StreamPool.slot_setSlot_self _ (h.sound.lt_size hc ho)
  refine h.ownerStep hc (.setSlot _ _ _) hsound (fun _ => rfl) ?_
  exact orderly_of_owner (fun _ _ => h.waits_put hc ho) (fun _ _ _ _ => .inr (.inl hslot))
    (fun _ _ _ _ => h.single_put hc) (fun hf => by cases hf) (fun _ hf => by cases hf)
    (fun _ hf => by cases hf)

/-- The slot of a request is freed only if nothing is due there, or the pool is closed. -/
theorem vacate (h : x.Faithful) (hc : x.traffic.caller q = some ⟨id, phase⟩)
    (hmay : phase.mayLeave = true)
    (hcases : x.traffic.pool.slot id = .waiting → phase = .sent → x.traffic.pool.closed = true)
    (hsound : (x.traffic.put q ⟨id, .leaving⟩ (x.traffic.pool.setSlot id .free)).Sound) :
    Faithful { x with
      traffic := x.traffic.put q ⟨id, .leaving⟩ (x.traffic.pool.setSlot id .free) } := by
  have ho := owns_of_mayLeave hmay
  refine h.ownerStep hc (.setSlot _ _ _) hsound (fun _ => rfl) ?_
  refine orderly_of_owner (fun _ _ => h.waits_put hc ho) ?due (fun _ _ _ _ => h.single_put hc)
    (fun hf => by cases hf) (fun _ hf => by cases hf) (fun _ hf => by cases hf)
  intro q' phase'' hc' hdue
  have hnobody : ∀ q'' phase₂, (x.traffic.put q ⟨id, .leaving⟩
      (x.traffic.pool.setSlot id .free)).caller q'' = some ⟨id, phase₂⟩ →
      phase₂.holds = true → q'' = q' := by
    intro q'' phase₂ hc'' hholds
    obtain ⟨_, rfl⟩ := h.waits_put hc ho hc'' (waits_of_holds hholds)
    cases hholds
  suffices hclosed : x.traffic.pool.closed = true from .inr (.inr ⟨hclosed, hnobody⟩)
  obtain ⟨old, hold⟩ : ∃ old, x.traffic.caller q' = some ⟨id, old⟩ := by
    rcases caller_put_eq_some hc hc' with ⟨rfl, _⟩ | ⟨_, hold⟩
    · exact ⟨phase, hc⟩
    · exact ⟨phase'', hold⟩
  rcases (h.orderly id).due q' old hold hdue with ⟨hholds, hwaiting⟩ | hs | ⟨hclosed, _⟩
  · obtain rfl := h.sound.alone hc ho hold (owns_of_waits (waits_of_holds hholds))
    rw [hc] at hold
    cases hold
    refine hcases hwaiting ?_
    by_cases hsent : phase = .sent
    · exact hsent
    · have hun : x.letters q' = .unasked :=
        h.unasked_of_phase hc (by cases phase <;> simp_all [Phase.isAsked, Phase.mayLeave])
      rw [hun] at hdue
      cases hdue
  · exact absurd hs (h.sound.owner hc ho).2.2.2
  · exact hclosed

/-! ## Results and who takes them -/

/-- An answer that is due has at most one request to go to. -/
theorem eq_of_due (h : x.Faithful) (hc : x.traffic.caller q = some ⟨id, phase⟩)
    (hdue : (x.letters q).isDue = true) (hc' : x.traffic.caller q' = some ⟨id, phase'⟩)
    (hholds : phase'.holds = true) : q' = q := by
  have ho := owns_of_waits (waits_of_holds hholds)
  rcases (h.orderly id).due q phase hc hdue with ⟨hholds', _⟩ | hslot | ⟨_, hall⟩
  · exact h.sound.alone hc (owns_of_waits (waits_of_holds hholds')) hc' ho
  · exact absurd hslot (h.sound.owner hc' ho).2.2.2
  · exact hall q' phase' hc' hholds

theorem sweep (h : x.Faithful) {fault : CallFault}
    (hclosing : x.traffic.closing = some (fault, id)) :
    Faithful { x with traffic :=
      ⟨x.traffic.pool.sweep fault id, x.traffic.callers, some (fault, id + 1)⟩ } := by
  have hclosed := h.sound.closing fault id hclosing
  have hagrees := StreamPool.AgreesOff.sweep x.traffic.pool id fault
  have hcases := x.traffic.pool.sweep_cases id fault
  refine h.poolStep hagrees (h.sound.sweep hclosing) ?_
  generalize x.traffic.pool.sweep fault id = pool at hagrees hcases ⊢
  have hclosed' : pool.closed = true := hagrees.closed.trans hclosed
  refine ⟨?due, (h.orderly id).single, fun _ _ _ _ _ => .inr hclosed', ?result, ?spent⟩
  case due =>
    intro q phase hc hdue
    exact .inr (.inr ⟨hclosed', fun q' phase' hc' => h.eq_of_due hc hdue hc'⟩)
  case result =>
    intro q phase e hc hholds hs
    rcases hcases with ⟨hslot, rfl⟩ | ⟨hslot, rfl⟩ | ⟨_, _, rfl⟩
    · have hid := StreamPool.lt_size_of_slot hslot nofun
      cases (StreamPool.slot_setSlot_self _ hid).symm.trans hs
    · have hid := StreamPool.lt_size_of_slot hslot nofun
      cases (StreamPool.slot_setSlot_self _ hid).symm.trans hs
    · exact (h.orderly id).result q phase e hc hholds hs
  case spent =>
    intro q phase r hc hholds hr hreq
    have hslot := (h.orderly id).spent q phase r hc hholds hr hreq
    rcases hcases with ⟨hs, _⟩ | ⟨hs, _⟩ | ⟨_, _, rfl⟩
    · cases hslot.symm.trans hs
    · cases hslot.symm.trans hs
    · exact hslot

/-- Taking a result leaves nothing on the id to be taken again. -/
theorem orderly_take (h : x.Faithful) {result : Except CallFault Envelope} {taken : List Taken}
    (hslot : x.traffic.pool.slot id = .completed result) :
    Orderly { x with
      traffic := { x.traffic with pool := x.traffic.pool.setSlot id .consumed }
      taken } id := by
  have hid := StreamPool.lt_size_of_slot hslot nofun
  have hslot' : (x.traffic.pool.setSlot id .consumed).slot id = .consumed :=
    StreamPool.slot_setSlot_self _ hid
  refine ⟨?due, (h.orderly id).single, ?unasked, ?result, fun _ _ _ _ _ _ _ => hslot'⟩
  case due =>
    intro q phase hc hdue
    rcases (h.orderly id).due q phase hc hdue with ⟨_, hs⟩ | hs | hclosed
    · cases hslot.symm.trans hs
    · cases hslot.symm.trans hs
    · exact .inr (.inr hclosed)
  case unasked =>
    intro q phase hc hwaits hun
    rcases (h.orderly id).unasked q phase hc hwaits hun with hs | hclosed
    · cases hslot.symm.trans hs
    · exact .inr hclosed
  case result =>
    intro q phase e _ _ hs
    cases hslot'.symm.trans hs

theorem takeFault (h : x.Faithful) {fault : CallFault} {pool : StreamPool}
    (hp : x.traffic.pool.response id = (some (.error fault), pool)) :
    Faithful { x with traffic := { x.traffic with pool } } := by
  have hsound := h.sound.take hp
  rcases StreamPool.response_eq_some hp with ⟨hslot, rfl⟩ | ⟨_, rfl⟩
  · exact h.poolStep (.setSlot _ _ _) hsound (h.orderly_take hslot)
  · exact h

theorem takeAnswer (h : x.Faithful) {e : Envelope} {pool : StreamPool}
    (hc : x.traffic.caller q = some ⟨id, phase⟩) (hholds : phase.holds = true)
    (hp : x.traffic.pool.response id = (some (.ok e), pool)) :
    Faithful { x with
      traffic := { x.traffic with pool }
      taken := x.taken ++ [⟨q, x.origin id, e⟩] } := by
  have hsound := h.sound.take hp
  obtain ⟨hslot, rfl⟩ : x.traffic.pool.slot id = .completed (.ok e) ∧
      pool = x.traffic.pool.setSlot id .consumed := by
    rcases StreamPool.response_eq_some hp with hslot | ⟨hf, _⟩
    · exact hslot
    · cases hf
  obtain ⟨horigin, hletter⟩ := (h.orderly id).result q phase e hc hholds hslot
  have hagrees : x.traffic.pool.AgreesOff id (x.traffic.pool.setSlot id .consumed) := .setSlot _ _ _
  refine ⟨hsound, ?asked, h.stream, ?orderly, ?taken, ?once⟩
  case asked =>
    intro q' hne
    obtain ⟨i, old, hold, hasked, hlt⟩ := h.asked q' hne
    exact ⟨i, old, hold, hasked, hagrees.size.symm ▸ hlt⟩
  case orderly =>
    intro i
    by_cases hi : i = id
    · subst hi
      exact h.orderly_take hslot
    · refine (h.orderly i).keep (Keeps.refl x i) (hagrees.slot i hi) (fun hcl => hcl) rfl ?_
      intro r hr
      rcases List.mem_append.mp hr with hr | hr
      · exact .inl hr
      · refine .inr fun phase' heq => ?_
        obtain rfl := List.mem_singleton.mp hr
        cases hc.symm.trans heq
        exact hi rfl
  case taken =>
    intro r hr
    rcases List.mem_append.mp hr with hr | hr
    · exact h.taken r hr
    · obtain rfl := List.mem_singleton.mp hr
      exact ⟨horigin, hletter⟩
  case once =>
    show ((x.taken ++ [Taken.mk q (x.origin id) e]).map Taken.source).Nodup
    rw [List.map_append, List.nodup_append]
    refine ⟨h.once, by simp, fun source hs source' hs' heq => ?_⟩
    obtain ⟨r, hr, rfl⟩ := List.mem_map.mp hs
    obtain rfl : source' = x.origin id := by simpa using hs'
    have hreq : r.request = q := by
      rw [(h.taken r hr).1, horigin] at heq
      exact Option.some.inj heq
    cases hslot.symm.trans ((h.orderly id).spent q phase r hc hholds hr hreq)

/-! ## Requests and answers on their way -/

/-- The answer that a request has taken does not change when another one's letter does. -/
theorem taken_update (h : x.Faithful) {letter : Letter} (hq : ∀ e, x.letters q ≠ .arrived e)
    {r : Taken} (hr : r ∈ x.taken) :
    r.source = some r.request ∧ update x.letters q letter r.request = .arrived r.envelope := by
  obtain ⟨hsource, harrived⟩ := h.taken r hr
  have hne : r.request ≠ q := by
    rintro rfl
    exact hq _ harrived
  exact ⟨hsource, (update_of_ne hne ..).trans harrived⟩

/-- When a request is handed over, nothing else is due on its id: whatever were due there would have
its own request for the holder of the id. -/
theorem orderly_send (h : x.Faithful) (hc : x.traffic.caller q = some ⟨id, .held⟩) :
    Orderly { x with
      traffic := x.traffic.put q ⟨id, .handing⟩ x.traffic.pool
      letters := update x.letters q .asked } id := by
  have hun := h.unasked_of_phase hc rfl
  have hself : (x.traffic.put q ⟨id, .handing⟩ x.traffic.pool).caller q = some ⟨id, .handing⟩ := by
    rw [caller_put hc, if_pos rfl]
  have halone : ∀ q' phase', (x.traffic.put q ⟨id, .handing⟩ x.traffic.pool).caller q' =
      some ⟨id, phase'⟩ → (update x.letters q .asked q').isDue = true → q' = q := by
    intro q' phase' hc' hdue
    by_cases hq : q' = q
    · exact hq
    · rw [caller_put hc, if_neg hq] at hc'
      rw [update_of_ne hq] at hdue
      exact (h.eq_of_due hc' hdue hc rfl).symm
  refine orderly_of_owner (fun _ _ => h.waits_put hc rfl) ?due ?single ?unasked ?result ?spent
  case due =>
    intro q' phase' hc' hdue
    obtain rfl := halone q' phase' hc' hdue
    cases hself.symm.trans hc'
    rcases (h.orderly id).unasked q' _ hc rfl hun with hs | hclosed
    · exact .inl ⟨rfl, hs⟩
    · refine .inr (.inr ⟨hclosed, fun q'' phase'' hc'' hholds => ?_⟩)
      exact (h.waits_put hc rfl hc'' (waits_of_holds hholds)).1
  case single =>
    intro q₁ q₂ phase₁ phase₂ hc₁ hc₂ hdue₁ hdue₂
    exact (halone q₂ phase₂ hc₂ hdue₂).trans (halone q₁ phase₁ hc₁ hdue₁).symm
  case unasked =>
    intro _ hl
    cases (update_self ..).symm.trans hl
  case result =>
    intro e _ hs
    cases hun.symm.trans ((h.orderly id).result q _ e hc rfl hs).2
  case spent =>
    intro r _ hr hreq
    exact absurd hreq (h.ne_of_unasked hun hr)

theorem send (h : x.Faithful) (hc : x.traffic.caller q = some ⟨id, .held⟩) :
    Faithful { x with
      traffic := x.traffic.put q ⟨id, .handing⟩ x.traffic.pool
      letters := update x.letters q .asked } := by
  have hun := h.unasked_of_phase hc rfl
  have hself : (x.traffic.put q ⟨id, .handing⟩ x.traffic.pool).caller q = some ⟨id, .handing⟩ := by
    rw [caller_put hc, if_pos rfl]
  have hother : ∀ q', q' ≠ q →
      (x.traffic.put q ⟨id, .handing⟩ x.traffic.pool).caller q' = x.traffic.caller q' := by
    intro q' hq
    rw [caller_put hc, if_neg hq]
  refine ⟨h.sound.ownerMoves hc rfl rfl rfl, ?asked, ?stream, ?orderly, ?taken, h.once⟩
  case asked =>
    intro q' hne
    by_cases hq : q' = q
    · subst hq
      exact ⟨id, .handing, hself, rfl, h.sound.lt_size hc rfl⟩
    · obtain ⟨i, old, hold, hasked, hlt⟩ := h.asked q' (by simpa [update_of_ne hq] using hne)
      exact ⟨i, old, (hother q' hq).trans hold, hasked, hlt⟩
  case stream =>
    intro q' i phase' e hl hc'
    by_cases hq : q' = q
    · subst hq
      cases (update_self ..).symm.trans hl
    · exact h.stream q' i phase' e ((update_of_ne hq ..).symm.trans hl)
        ((hother q' hq).symm.trans hc')
  case taken =>
    intro r hr
    exact h.taken_update (fun e heq => by cases hun.symm.trans heq) hr
  case orderly =>
    intro i
    by_cases hi : i = id
    · subst hi
      exact h.orderly_send hc
    · refine (h.orderly i).keep (keeps_of_ne (q := q) hother (fun q' hq => update_of_ne hq ..) ?_)
        rfl (fun hcl => hcl) rfl (fun _ hr => .inl hr)
      intro phase heq
      cases hself.symm.trans heq
      exact hi rfl

theorem answer (h : x.Faithful) {e : Envelope} (hl : x.letters q = .asked)
    (hc : x.traffic.caller q = some ⟨id, phase⟩) (he : e.stream = Int16.ofNat id) :
    Faithful { x with letters := update x.letters q (.answered e) } := by
  refine ⟨h.sound, ?asked, ?stream, ?orderly, ?taken, h.once⟩
  case asked =>
    intro q' hne
    by_cases hq : q' = q
    · exact h.asked q' (by rw [hq, hl]; exact fun heq => by cases heq)
    · exact h.asked q' (by simpa [update_of_ne hq] using hne)
  case stream =>
    intro q' i phase' e' hl' hc'
    by_cases hq : q' = q
    · subst hq
      cases (update_self ..).symm.trans hl'
      cases hc.symm.trans hc'
      exact he
    · exact h.stream q' i phase' e' ((update_of_ne hq ..).symm.trans hl') hc'
  case taken =>
    intro r hr
    exact h.taken_update (fun e heq => by cases hl.symm.trans heq) hr
  case orderly =>
    intro i
    refine (h.orderly i).keep ?_ rfl (fun hcl => hcl) rfl (fun _ hr => .inl hr)
    intro q' phase' hc' hmatters
    by_cases hq : q' = q
    · subst hq
      refine ⟨phase', hc', rfl, fun hw => hw, fun _ => by rw [hl]; rfl, fun hun => ?_,
        fun e' ha => ?_⟩
      · cases (update_self ..).symm.trans hun
      · cases hl.symm.trans ha
    · refine ⟨phase', hc', rfl, fun hw => hw, ?_⟩
      simp only [update_of_ne hq]
      exact ⟨fun hd => hd, fun hu => hu, fun _ ha => ha⟩

theorem toNat_stream {e : Envelope} (h : e.stream = Int16.ofNat id) (hlt : id < maxStreams) :
    e.stream.toInt.toNat = id ∧ ¬ e.stream < 0 := by
  have hint : e.stream.toInt = id := by
    rw [h]
    exact Int16.toInt_ofNat_of_lt hlt
  refine ⟨by rw [hint, Int.toNat_natCast], ?_⟩
  rw [Int16.lt_iff_toInt_lt, hint]
  exact Int.not_lt.mpr (Int.natCast_nonneg id)

/-- On the id of an answer that comes, its request is the only one to find it. -/
theorem orderly_deliver (h : x.Faithful) {e : Envelope} (hl : x.letters q = .answered e)
    (hc : x.traffic.caller q = some ⟨id, phase⟩) (hlt : id < x.traffic.pool.size)
    (hid : e.stream.toInt.toNat = id) (hstream : ¬ e.stream < 0) :
    Orderly { x with
      traffic := { x.traffic with pool := (x.traffic.pool.complete e).2 }
      letters := update x.letters q (.arrived e)
      origin := update x.origin id (some q) } id := by
  have hdue : (x.letters q).isDue = true := by rw [hl]; rfl
  have hagrees := StreamPool.AgreesOff.complete x.traffic.pool e
  have hcases := x.traffic.pool.complete_cases e
  rw [hid] at hagrees hcases
  generalize (x.traffic.pool.complete e).2 = pool at hagrees hcases ⊢
  -- no other answer is due here, and nobody else is to take a result
  have hnone : ∀ q' phase', x.traffic.caller q' = some ⟨id, phase'⟩ →
      (update x.letters q (.arrived e) q').isDue = false := by
    intro q' phase' hc'
    by_cases hq : q' = q
    · rw [hq, update_self]
      rfl
    · rw [update_of_ne hq]
      refine Bool.eq_false_iff.mpr fun hdue' => hq ?_
      exact (h.orderly id).single q q' phase phase' hc hc' hdue hdue'
  refine ⟨?due, ?single, ?unasked, ?result, ?spent⟩
  case due =>
    intro q' phase' hc' hdue'
    cases (hnone q' phase' hc').symm.trans hdue'
  case single =>
    intro q₁ q₂ phase₁ phase₂ hc₁ _ hdue₁ _
    cases (hnone q₁ phase₁ hc₁).symm.trans hdue₁
  case unasked =>
    intro q' phase' hc' hwaits hun
    have hq : q' ≠ q := by
      rintro rfl
      cases (update_self ..).symm.trans hun
    have hun' := (update_of_ne hq ..).symm.trans hun
    have hclosed := (h.due_of_unasked hc' (owns_of_waits hwaits) hun' hc hdue).1
    exact .inr (hagrees.closed.trans hclosed)
  case result =>
    intro q' phase' e' hc' hholds hs
    obtain rfl := h.eq_of_due hc hdue hc' hholds
    have hs : pool.slot id = .completed (.ok e') := hs
    rcases hcases with ⟨rfl, hneg | hslot | hslot⟩ | ⟨hslot, rfl⟩ | ⟨_, rfl⟩ | ⟨_, rfl⟩
    · exact absurd hneg hstream
    · cases hslot.symm.trans hs
    · cases hslot.symm.trans hs
    · cases (StreamPool.slot_setSlot_self _ hlt).symm.trans hs
      exact ⟨update_self .., update_self ..⟩
    · cases (StreamPool.slot_setSlot_self _ hlt).symm.trans hs
    · cases (StreamPool.slot_setSlot_self _ hlt).symm.trans hs
  case spent =>
    intro q' phase' r hc' hholds hr hreq
    have hslot := (h.orderly id).spent q' phase' r hc' hholds hr hreq
    rcases hcases with ⟨rfl, _⟩ | ⟨hs, _⟩ | ⟨⟨_, hs⟩, _⟩ | ⟨hs, _⟩
    · exact hslot
    · cases hslot.symm.trans hs
    · cases hslot.symm.trans hs
    · cases hslot.symm.trans hs

/-- An answer that comes reaches its own request, or nobody that could take it. -/
theorem deliver (h : x.Faithful) {e : Envelope} (hl : x.letters q = .answered e) :
    Faithful { x with
      traffic := { x.traffic with pool := (x.traffic.pool.complete e).2 }
      letters := update x.letters q (.arrived e)
      origin := update x.origin e.stream.toInt.toNat (some q) } := by
  obtain ⟨id, phase, hc, -, hlt⟩ := h.asked q (by rw [hl]; exact fun heq => by cases heq)
  obtain ⟨hid, hstream⟩ :=
    toNat_stream (h.stream q id phase e hl hc) (Nat.lt_of_lt_of_le hlt h.sound.small)
  have hself := h.orderly_deliver hl hc hlt hid hstream
  have hsound := h.sound.complete e
  have hagrees := StreamPool.AgreesOff.complete x.traffic.pool e
  rw [hid] at hagrees ⊢
  refine ⟨hsound, ?asked, ?stream, ?orderly, ?taken, h.once⟩
  case asked =>
    intro q' hne
    have hne' : x.letters q' ≠ .unasked := by
      by_cases hq : q' = q
      · rw [hq, hl]
        exact fun heq => by cases heq
      · simpa [update_of_ne hq] using hne
    obtain ⟨i, old, hold, holdAsked, hlt'⟩ := h.asked q' hne'
    exact ⟨i, old, hold, holdAsked, hagrees.size.symm ▸ hlt'⟩
  case stream =>
    intro q' i phase' e' hl' hc'
    by_cases hq : q' = q
    · subst hq
      cases (update_self ..).symm.trans hl'
    · exact h.stream q' i phase' e' ((update_of_ne hq ..).symm.trans hl') hc'
  case taken =>
    intro r hr
    exact h.taken_update (fun e heq => by cases hl.symm.trans heq) hr
  case orderly =>
    intro i
    by_cases hi : i = id
    · exact hi ▸ hself
    · refine (h.orderly i).keep (keeps_of_ne (q := q) (fun _ _ => rfl)
        (fun q' hq => update_of_ne hq ..) ?_) (hagrees.slot i hi)
        (fun hcl => hagrees.closed.trans hcl) (update_of_ne hi ..) (fun _ hr => .inl hr)
      intro phase' heq
      cases hc.symm.trans heq
      exact hi rfl

/-- A step of requests that have no id, or of whoever starts to close the pool. -/
theorem strangerStep (h : x.Faithful) {t : Traffic} (hsound : t.Sound)
    (hsize : t.pool.size = x.traffic.pool.size)
    (hslot : ∀ i, t.pool.slot i = x.traffic.pool.slot i)
    (hclosed : x.traffic.pool.closed = true → t.pool.closed = true)
    (hnew : ∀ q c, t.caller q = some c →
      x.traffic.caller q = some c ∨ x.letters q = .unasked ∧ c.phase.waits = false)
    (hold : ∀ q c, x.traffic.caller q = some c → c.phase.isAsked = true → t.caller q = some c) :
    Faithful { x with traffic := t } where
  sound := hsound
  asked q hne := by
    obtain ⟨i, phase, hc, hasked, hlt⟩ := h.asked q hne
    exact ⟨i, phase, hold q _ hc hasked, hasked, hsize.symm ▸ hlt⟩
  stream q i phase e hl hc := by
    rcases hnew q _ hc with hc' | ⟨hun, _⟩
    · exact h.stream q i phase e hl hc'
    · cases hl.symm.trans hun
  orderly i := by
    refine (h.orderly i).keep ?_ (hslot i) hclosed rfl (fun _ hr => .inl hr)
    intro q phase hc hmatters
    rcases hnew q _ hc with hc' | ⟨hun, hwaits⟩
    · exact Keeps.refl x i q phase hc' hmatters
    · rcases hmatters with hw | hdue
      · cases hwaits.symm.trans hw
      · rw [hun] at hdue
        cases hdue
  taken := h.taken
  once := h.once

theorem enteringStep (h : x.Faithful) {c' : Caller} {pool : StreamPool}
    (hc : x.traffic.caller q = some ⟨id, .entering⟩) (hsound : (x.traffic.put q c' pool).Sound)
    (hsize : pool.size = x.traffic.pool.size)
    (hslot : ∀ i, pool.slot i = x.traffic.pool.slot i)
    (hclosed : x.traffic.pool.closed = true → pool.closed = true)
    (hwaits : c'.phase.waits = false) :
    Faithful { x with traffic := x.traffic.put q c' pool } := by
  refine h.strangerStep hsound hsize hslot hclosed ?_ ?_
  · intro q' c hc''
    rcases caller_put_eq_some hc hc'' with ⟨rfl, rfl⟩ | ⟨_, hold⟩
    · exact .inr ⟨h.unasked_of_phase hc rfl, hwaits⟩
    · exact .inl hold
  · intro q' c hold hasked
    rw [caller_put hc, if_neg]
    · exact hold
    · rintro rfl
      cases hc.symm.trans hold
      cases hasked

/-- A step of the owner of an id that does not change what it may take. -/
theorem ownerMoves (h : x.Faithful) {pool : StreamPool}
    (hc : x.traffic.caller q = some ⟨id, phase⟩) (hagrees : x.traffic.pool.AgreesOff id pool)
    (hslot : pool.slot id = x.traffic.pool.slot id)
    (hsound : (x.traffic.put q ⟨id, phase'⟩ pool).Sound)
    (hasked : phase.isAsked = true → phase'.isAsked = true)
    (hholds : phase.holds = phase'.holds) (hwaits : phase'.waits = true → phase.waits = true) :
    Faithful { x with traffic := x.traffic.put q ⟨id, phase'⟩ pool } :=
  h.ownerStep hc hagrees hsound hasked ((h.orderly id).keep
    (keeps_put hc fun _ _ => ⟨rfl, hholds, hwaits⟩) hslot (fun hcl => hagrees.closed.trans hcl) rfl
    (fun _ hr => .inl hr))

theorem quiet (h : x.Faithful) {m : Move} {t : Traffic} (hm : m.isQuiet = true)
    (hstep : x.traffic.Step m t) : Faithful { x with traffic := t } := by
  have hsound := hstep.sound h.sound
  cases hstep with
  | enter =>
    refine h.strangerStep hsound rfl (fun _ => rfl) (fun hcl => hcl) ?_ ?_
    · intro q c hc
      rw [caller_enter] at hc
      split at hc
      · rename_i hq
        cases hc
        refine .inr ⟨?_, rfl⟩
        by_cases hun : x.letters q = .unasked
        · exact hun
        · obtain ⟨_, _, hold, _⟩ := h.asked q hun
          rw [hq, caller, List.getElem?_eq_none (Nat.le_refl _)] at hold
          cases hold
      · exact .inl hc
    · intro q c hc _
      rw [caller_enter, if_neg]
      · exact hc
      · rintro rfl
        rw [caller, List.getElem?_eq_none (Nat.le_refl _)] at hc
        cases hc
  | turnAway hc => exact h.enteringStep hc hsound rfl (fun _ => rfl) (fun hcl => hcl) rfl
  | claim hc hbit => exact h.enteringStep hc hsound rfl (fun _ => rfl) (fun hcl => hcl) rfl
  | arm hc => exact h.arm hc
  | recheck hc =>
    cases hclosed : x.traffic.pool.closed with
    | false =>
      rw [hclosed] at hsound
      exact h.recheck hc hclosed
    | true =>
      rw [hclosed] at hsound
      exact h.ownerMoves hc (.refl _ _) rfl hsound (fun hf => by cases hf) rfl (fun _ => rfl)
  | send => cases hm
  | noteSent hc =>
    exact h.ownerMoves hc (.refl _ _) rfl hsound (fun _ => rfl) rfl (fun _ => rfl)
  | receive e => cases hm
  | @take _ _ _ result _ hc hholds hp =>
    cases result with
    | ok e => cases hm
    | error fault => exact h.takeFault hp
  | @abandon q id phase pool hc hmay hp =>
    rcases x.traffic.pool.vacate_cases id (phase = .sent) with ⟨_, _, _, hv⟩ | ⟨_, hv⟩
    · rw [hv] at hp
      cases hp
      exact h.abandon hc hmay hsound
    · rw [hv] at hp
      cases hp
  | @vacate q id phase pool hc hmay hp =>
    rcases x.traffic.pool.vacate_cases id (phase = .sent) with ⟨_, _, _, hv⟩ | ⟨hcases, hv⟩
    · rw [hv] at hp
      cases hp
    · rw [hv] at hp
      cases hp
      exact h.vacate hc hmay (fun hw hsent => hcases hw (by simp [hsent])) hsound
  | release hc =>
    exact h.ownerMoves hc (StreamPool.AgreesOff.refl _ _).release rfl hsound (fun _ => rfl) rfl
      (fun hf => by cases hf)
  | close fault hopen =>
    exact h.strangerStep hsound rfl (fun _ => rfl) (fun _ => rfl) (fun _ _ hc => .inl hc)
      (fun _ _ hc _ => hc)
  | sweep hclosing _ => exact h.sweep hclosing

end Faithful

/-! ## Runs -/

theorem faithful_new (size : Nat) : (Exchange.new size).Faithful where
  sound := sound_new size
  asked _ hne := absurd rfl hne
  stream _ _ _ _ hl := by cases hl
  orderly _ := {
    due := fun _ _ hc => by cases hc
    single := fun _ _ _ _ hc => by cases hc
    unasked := fun _ _ hc => by cases hc
    result := fun _ _ _ hc => by cases hc
    spent := fun _ _ _ hc => by cases hc }
  taken _ hr := by cases hr
  once := .nil

theorem Step.faithful (hstep : Step x y) (h : x.Faithful) : y.Faithful := by
  cases hstep with
  | quiet hm hstep => exact h.quiet hm hstep
  | send hstep =>
    cases hstep with
    | send hc => exact h.send hc
  | answer hl hc he => exact h.answer hl hc he
  | deliver hl hstep =>
    cases hstep with
    | receive => exact h.deliver hl
  | take hc hstep =>
    cases hstep with
    | take hc' hholds hp =>
      cases hc.symm.trans hc'
      exact h.takeAnswer hc hholds hp

theorem Reachable.faithful {size : Nat} (h : Reachable size x) : x.Faithful := by
  induction h with
  | new => exact faithful_new size
  | step _ hstep ih => exact hstep.faithful ih

/-- Whatever the order of all steps, a request takes no answer but its own, which the other side has
sent and which has come, and no answer is taken twice. -/
theorem taken_own_answers {size : Nat} {x : Exchange} (h : Reachable size x) :
    (∀ r, r ∈ x.taken →
      r.source = some r.request ∧ x.letters r.request = .arrived r.envelope) ∧
    (x.taken.map Taken.source).Nodup :=
  ⟨h.faithful.taken, h.faithful.once⟩

/-- An answer on stream 0. -/
def readyWith (body : Bytes) : Envelope := ⟨0x84, .none, 0, .ready, body⟩

/-- The only id of a pool is given up, its answer comes late, and the next request takes its own. -/
theorem taken_own_answers_after_abandoning : ∃ x, Reachable 1 x ∧
    x.taken = [⟨1, some 1, readyWith [8]⟩] ∧
    (∀ r, r ∈ x.taken →
      r.source = some r.request ∧ x.letters r.request = .arrived r.envelope) ∧
    (x.taken.map Taken.source).Nodup := by
  have h : Reachable 1 (.new 1) := .new
  have h := h.step (.quiet rfl (.enter rfl))
  have h := h.step (.quiet rfl (.claim rfl rfl : Traffic.Step _ (.claim 0 0) _))
  have h := h.step (.quiet rfl (.arm (q := 0) rfl))
  have h := h.step (.quiet rfl (.recheck (q := 0) rfl))
  have h := h.step (.send (.send (q := 0) rfl))
  have h := h.step (.quiet rfl (.noteSent (q := 0) rfl))
  have h := h.step (.quiet rfl (.abandon (q := 0) rfl rfl rfl))
  have h := h.step (.quiet rfl (.enter rfl))
  have h := h.step (.answer (q := 0) (e := readyWith [7]) rfl rfl rfl)
  have h := h.step (.deliver (q := 0) rfl (.receive _))
  have h := h.step (.quiet rfl (.claim rfl rfl : Traffic.Step _ (.claim 1 0) _))
  have h := h.step (.quiet rfl (.arm (q := 1) rfl))
  have h := h.step (.quiet rfl (.recheck (q := 1) rfl))
  have h := h.step (.send (.send (q := 1) rfl))
  have h := h.step (.answer (q := 1) (e := readyWith [8]) rfl rfl rfl)
  have h := h.step (.deliver (q := 1) rfl (.receive _))
  have h := h.step (.quiet rfl (.noteSent (q := 1) rfl))
  have h := h.step (.take (q := 1) rfl (.take rfl rfl rfl))
  exact ⟨_, h, rfl, taken_own_answers h⟩

end Exchange

end CqlClient
