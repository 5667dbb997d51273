import CqlClient.Proofs.Session.Traffic

/-!
# What a request that waits will find

From the moment on at which its id waits, a request finds in its slot what the moves of others have
left there: an answer, the fault that the pool was closed with, or the report of a second answer.

* `Traffic.Step.befalls`: all that one step does to the slot of a request;
* `Traffic.Tells`: what a slot tells of the moves since it began to wait;
* `Traffic.Tells.step`, `Traffic.Run.tells`: it goes on to do so, after any step and any run;
* `Traffic.take_of_wait`: what follows for a result that is taken.
-/

namespace CqlClient

namespace Traffic

variable {s t u : Traffic} {m : Move} {ms past late : List Move} {q id : Nat} {phase : Phase}

/-- The number of envelopes of a stream that are received in the course of some moves. -/
def answers (id : Nat) (ms : List Move) : Nat :=
  ms.countP fun
    | .receive e => e.stream.toInt = id
    | _ => false

theorem answers_append (ms past : List Move) :
    answers id (ms ++ past) = answers id ms + answers id past := List.countP_append ..

/-- Whether the id has come to wait, at some time. -/
def Phase.hasWaited : Phase → Bool
  | .entering | .claimed => false
  | _ => true

/-! ## One step -/

/-- What a step does to the slot of a request that waits before and after it. -/
inductive Befalls (s : Traffic) (q id : Nat) (m : Move) (slot : Slot) : Prop
  | nothing (same : slot = s.pool.slot id) (silent : answers id [m] = 0)
  | received (e : Envelope) (move : m = .receive e) (stream : e.stream.toInt = id)
    (filled : slot = (s.pool.complete e).2.slot id)
  | swept (fault : CallFault) (move : m = .sweep) (closing : s.closing = some (fault, id))
    (filled : slot = (s.pool.sweep fault id).slot id)
  | taken (result : Except CallFault Envelope) (move : m = .take q result)
    (filled : slot = .consumed)

/-- A step of another request leaves the slot alone. -/
theorem befalls_of_ne {q' id' : Nat} {phase' : Phase} {pool : StreamPool} (h : s.Sound)
    (hc : s.caller q = some ⟨id, phase⟩) (hwaits : phase.waits = true)
    (hc' : s.caller q' = some ⟨id', phase'⟩) (ho : phase'.owns = true) (hne : q ≠ q')
    (hagrees : s.pool.AgreesOff id' pool) (hsilent : answers id [m] = 0) :
    Befalls s q id m (pool.slot id) := by
  refine .nothing (hagrees.slot id ?_) hsilent
  rintro rfl
  exact hne (h.alone hc' ho hc (owns_of_waits hwaits))

/-- A step of a request, of this or another one. -/
theorem befalls_put {q' : Nat} {c c' : Caller} {pool : StreamPool}
    (hc : s.caller q = some ⟨id, phase⟩) (hphase : phase.hasWaited = true)
    (hc' : s.caller q' = some c)
    (hself : c = ⟨id, phase⟩ → c'.id = id ∧ c'.phase.hasWaited = true ∧
      (c'.phase.waits = true → phase.waits = true ∧ Befalls s q id m (pool.slot id)))
    (hother : q ≠ q' → phase.waits = true → Befalls s q id m (pool.slot id)) :
    ∃ phase', (s.put q' c' pool).caller q = some ⟨id, phase'⟩ ∧ phase'.hasWaited = true ∧
      (phase'.waits = true → phase.waits = true ∧ Befalls s q id m (pool.slot id)) := by
  rw [caller_put hc']
  by_cases hq : q = q'
  · subst hq
    rw [if_pos rfl]
    obtain ⟨rfl, hwaited, hbefalls⟩ := hself (Option.some.inj (hc'.symm.trans hc))
    exact ⟨c'.phase, rfl, hwaited, hbefalls⟩
  · rw [if_neg hq]
    exact ⟨phase, hc, hphase, fun hwaits => ⟨hwaits, hother hq hwaits⟩⟩

/-- A request gives up its slot. -/
theorem befalls_leave {q' id' : Nat} {phase' after : Phase} {pool : StreamPool} {found : Bool}
    (h : s.Sound) (hc : s.caller q = some ⟨id, phase⟩) (hphase : phase.hasWaited = true)
    (hc' : s.caller q' = some ⟨id', phase'⟩) (hmay : phase'.mayLeave = true)
    (hp : s.pool.vacate id' (phase' = .sent) = (found, pool)) (hafter : after.hasWaited = true)
    (hleft : after.waits = false) (hsilent : answers id [m] = 0) :
    ∃ phase', (s.put q' ⟨id', after⟩ pool).caller q = some ⟨id, phase'⟩ ∧
      phase'.hasWaited = true ∧
      (phase'.waits = true → phase.waits = true ∧ Befalls s q id m (pool.slot id)) := by
  refine befalls_put hc hphase hc' (fun heq => ?_) fun hne hwaits => ?_
  · cases heq
    exact ⟨rfl, hafter, fun hf => by rw [hleft] at hf; cases hf⟩
  · have hagrees := StreamPool.AgreesOff.vacate s.pool id' (phase' = .sent)
    rw [hp] at hagrees
    exact befalls_of_ne h hc hwaits hc' (owns_of_mayLeave hmay) hne hagrees hsilent

/-- A request whose id has come to wait keeps it, until it leaves. -/
theorem Step.befalls (h : s.Sound) (hstep : Step s m t) (hc : s.caller q = some ⟨id, phase⟩)
    (hphase : phase.hasWaited = true) :
    ∃ phase', t.caller q = some ⟨id, phase'⟩ ∧ phase'.hasWaited = true ∧
      (phase'.waits = true → phase.waits = true ∧ Befalls s q id m (t.pool.slot id)) := by
  cases hstep with
  | enter =>
    refine ⟨phase, ?_, hphase, fun hwaits => ⟨hwaits, .nothing rfl rfl⟩⟩
    obtain ⟨hlt, _⟩ := List.getElem?_eq_some_iff.mp hc
    rw [caller_enter, if_neg (Nat.ne_of_lt hlt)]
    exact hc
  | turnAway hc' =>
    refine befalls_put hc hphase hc' (fun heq => ?_) fun _ _ => .nothing rfl rfl
    cases heq
    cases hphase
  | claim hc' =>
    refine befalls_put hc hphase hc' (fun heq => ?_) fun _ _ => .nothing rfl rfl
    cases heq
    cases hphase
  | arm hc' =>
    refine befalls_put hc hphase hc' (fun heq => ?_) fun hne hwaits =>
      befalls_of_ne h hc hwaits hc' rfl hne (.setSlot _ _ _) rfl
    cases heq
    cases hphase
  | recheck hc' =>
    refine befalls_put hc hphase hc' (fun heq => ?_) fun _ _ => .nothing rfl rfl
    cases heq
    refine ⟨rfl, ?_, fun _ => ⟨rfl, .nothing rfl rfl⟩⟩
    split <;> rfl
  | send hc' =>
    refine befalls_put hc hphase hc' (fun heq => ?_) fun _ _ => .nothing rfl rfl
    cases heq
    exact ⟨rfl, rfl, fun _ => ⟨rfl, .nothing rfl rfl⟩⟩
  | noteSent hc' =>
    refine befalls_put hc hphase hc' (fun heq => ?_) fun _ _ => .nothing rfl rfl
    cases heq
    exact ⟨rfl, rfl, fun _ => ⟨rfl, .nothing rfl rfl⟩⟩
  | receive e =>
    refine ⟨phase, hc, hphase, fun hwaits => ⟨hwaits, ?_⟩⟩
    by_cases hstream : e.stream.toInt = id
    · exact .received e rfl hstream rfl
    · have hsilent : answers id [.receive e] = 0 := by simp [answers, hstream]
      exact .nothing (s.pool.slot_complete_of_ne id hstream) hsilent
  | @take q' id' phase' result pool hc' hholds hp =>
    refine ⟨phase, hc, hphase, fun hwaits => ⟨hwaits, ?_⟩⟩
    by_cases hq : q = q'
    · subst hq
      cases hc.symm.trans hc'
      rcases StreamPool.response_eq_some hp with ⟨hslot, rfl⟩ | ⟨_, rfl⟩
      · exact .taken result rfl
          (StreamPool.slot_setSlot_self _ (h.lt_size hc (owns_of_waits hwaits)))
      · exact .nothing rfl rfl
    · exact befalls_of_ne h hc hwaits hc' (owns_of_waits (waits_of_holds hholds)) hq
        (StreamPool.AgreesOff.response hp) rfl
  | abandon hc' hmay hp => exact befalls_leave h hc hphase hc' hmay hp rfl rfl rfl
  | vacate hc' hmay hp => exact befalls_leave h hc hphase hc' hmay hp rfl rfl rfl
  | release hc' =>
    refine befalls_put hc hphase hc' (fun heq => ?_) fun _ _ => .nothing rfl rfl
    cases heq
    exact ⟨rfl, rfl, fun hf => by cases hf⟩
  | close fault => exact ⟨phase, hc, hphase, fun hwaits => ⟨hwaits, .nothing rfl rfl⟩⟩
  | @sweep fault id' hclosing =>
    refine ⟨phase, hc, hphase, fun hwaits => ⟨hwaits, ?_⟩⟩
    by_cases hid : id = id'
    · subst hid
      exact .swept fault rfl hclosing rfl
    · exact .nothing ((StreamPool.AgreesOff.sweep s.pool id' fault).slot id hid) rfl

/-! ## What a slot tells -/

/-- A move leads to one state only. -/
theorem Step.unique (h : Step s m t) (h' : Step s m u) : t = u := by
  cases h with
  | enter => cases h'; rfl
  | turnAway hc =>
    cases h' with
    | turnAway hc' => cases hc.symm.trans hc'; rfl
  | claim => cases h'; rfl
  | arm hc =>
    cases h' with
    | arm hc' => cases hc.symm.trans hc'; rfl
  | recheck hc =>
    cases h' with
    | recheck hc' => cases hc.symm.trans hc'; rfl
  | send hc =>
    cases h' with
    | send hc' => cases hc.symm.trans hc'; rfl
  | noteSent hc =>
    cases h' with
    | noteSent hc' => cases hc.symm.trans hc'; rfl
  | receive => cases h'; rfl
  | take hc _ hp =>
    cases h' with
    | take hc' _ hp' =>
      cases hc.symm.trans hc'
      cases hp.symm.trans hp'
      rfl
  | abandon hc _ hp =>
    cases h' with
    | abandon hc' _ hp' =>
      cases hc.symm.trans hc'
      cases hp.symm.trans hp'
      rfl
    | vacate hc' _ hp' =>
      cases hc.symm.trans hc'
      cases hp.symm.trans hp'
  | vacate hc _ hp =>
    cases h' with
    | abandon hc' _ hp' =>
      cases hc.symm.trans hc'
      cases hp.symm.trans hp'
    | vacate hc' _ hp' =>
      cases hc.symm.trans hc'
      cases hp.symm.trans hp'
      rfl
  | release hc =>
    cases h' with
    | release hc' => cases hc.symm.trans hc'; rfl
  | close => cases h'; rfl
  | sweep hs =>
    cases h' with
    | sweep hs' => cases hs.symm.trans hs'; rfl

theorem Run.append (h : Run s past t) (h' : Run t ms u) : Run s (past ++ ms) u := by
  induction h with
  | nil => exact h'
  | cons hstep _ ih => exact .cons hstep (ih h')

theorem Run.suffix (h : Run s past t) (h' : Run s (past ++ ms) u) : Run t ms u := by
  induction h with
  | nil => exact h'
  | cons hstep _ ih =>
    cases h' with
    | cons hstep' hrest =>
      cases hstep.unique hstep'
      exact ih hrest

/-- Whoever closed the pool has found the id waiting, after some of the moves and before others. -/
def Swept (s : Traffic) (id : Nat) (fault : CallFault) (ms late : List Move) : Prop :=
  ∃ early mid, ms = early ++ .sweep :: late ∧ Run s early mid ∧ mid.closing = some (fault, id) ∧
    mid.pool.slot id = .waiting

theorem Swept.snoc {fault : CallFault} (h : Swept s id fault past late) (m : Move) :
    Swept s id fault (past ++ [m]) (late ++ [m]) := by
  obtain ⟨early, mid, rfl, hrun, hclosing, hslot⟩ := h
  exact ⟨early, mid, by simp, hrun, hclosing, hslot⟩

/-- Why the slot of an id reports a second answer. -/
def AnsweredAgain (s : Traffic) (id : Nat) (past : List Move) : Prop :=
  2 ≤ answers id past ∨ ∃ fault late, Swept s id fault past late ∧ 0 < answers id late

/-- What the slot of an id tells of the moves since `s`, when it began to wait. -/
def Tells (s : Traffic) (id : Nat) (past : List Move) : Slot → Prop
  | .waiting => answers id past = 0
  | .completed (.ok _) => 0 < answers id past
  | .completed (.error fault) =>
    (∃ late, Swept s id fault past late ∧ answers id late = 0) ∨
      ∃ stream, fault = .violation (.completedTwice stream) ∧ stream.toInt = id ∧
        AnsweredAgain s id past
  | .consumed => True
  | .free | .abandoned => False

theorem AnsweredAgain.snoc (h : AnsweredAgain s id past) (m : Move) :
    AnsweredAgain s id (past ++ [m]) := by
  rcases h with htwice | ⟨fault, late, hswept, hlate⟩
  · refine .inl ?_
    rw [answers_append]
    omega
  · refine .inr ⟨fault, late ++ [m], hswept.snoc m, ?_⟩
    rw [answers_append]
    omega

/-- A slot that stays as it is tells the same of more moves. -/
theorem Tells.silent {slot : Slot} (h : Tells s id past slot) (hsilent : answers id [m] = 0) :
    Tells s id (past ++ [m]) slot := by
  have hcount : ∀ ms, answers id (ms ++ [m]) = answers id ms := by
    intro ms
    rw [answers_append, hsilent, Nat.add_zero]
  cases slot with
  | free => exact h
  | abandoned => exact h
  | consumed => exact h
  | waiting => exact (hcount past).trans h
  | completed result =>
    cases result with
    | ok e =>
      show 0 < answers id (past ++ [m])
      rw [hcount]
      exact h
    | error fault =>
      rcases h with ⟨late, hswept, hnone⟩ | ⟨stream, hfault, hstream, hagain⟩
      · exact .inl ⟨late ++ [m], hswept.snoc m, (hcount late).trans hnone⟩
      · exact .inr ⟨stream, hfault, hstream, hagain.snoc m⟩

/-- An answer fills the slot, or spoils what was there. -/
theorem Tells.receive {e : Envelope} {p : StreamPool} (h : Tells s id past (p.slot id))
    (hstream : e.stream.toInt = id) :
    Tells s id (past ++ [.receive e]) ((p.complete e).2.slot id) := by
  have hone : answers id [.receive e] = 1 := by simp [answers, hstream]
  have hid : e.stream.toInt.toNat = id := by omega
  have hcases := p.complete_cases e
  rw [hid] at hcases
  rcases hcases with ⟨hp, hslot⟩ | ⟨hslot, hp⟩ | ⟨⟨result, hslot⟩, hp⟩ | ⟨hslot, _⟩
  · rw [hp]
    rcases hslot with hneg | hfree | hconsumed
    · have hlt : e.stream.toInt < 0 := Int16.lt_iff_toInt_lt.mp hneg
      omega
    · rw [hfree] at h
      exact h.elim
    · rw [hconsumed]
      trivial
  · have hlt : id < p.size := StreamPool.lt_size_of_slot hslot nofun
    rw [hp, StreamPool.slot_setSlot_self _ hlt]
    show 0 < answers id (past ++ [.receive e])
    rw [answers_append, hone]
    omega
  · have hlt : id < p.size := StreamPool.lt_size_of_slot hslot nofun
    rw [hp, StreamPool.slot_setSlot_self _ hlt]
    rw [hslot] at h
    refine .inr ⟨e.stream, rfl, hstream, ?_⟩
    cases result with
    | ok e' =>
      have hfirst : 0 < answers id past := h
      refine .inl ?_
      rw [answers_append, hone]
      omega
    | error fault =>
      rcases h with ⟨late, hswept, _⟩ | ⟨_, _, _, hagain⟩
      · refine .inr ⟨fault, _, hswept.snoc _, ?_⟩
        rw [answers_append, hone]
        omega
      · exact hagain.snoc _
  · rw [hslot] at h
    exact h.elim

/-- Closing the pool fills the slot, unless it has a result already. -/
theorem Tells.sweep {fault : CallFault} (h : Tells s id past (t.pool.slot id))
    (hrun : Run s past t) (hclosing : t.closing = some (fault, id)) :
    Tells s id (past ++ [.sweep]) ((t.pool.sweep fault id).slot id) := by
  rcases t.pool.sweep_cases id fault with ⟨hslot, hp⟩ | ⟨hslot, _⟩ | ⟨_, _, hp⟩
  · have hlt : id < t.pool.size := StreamPool.lt_size_of_slot hslot nofun
    rw [hp, StreamPool.slot_setSlot_self _ hlt]
    exact .inl ⟨[], ⟨past, t, rfl, hrun, hclosing, hslot⟩, rfl⟩
  · rw [hslot] at h
    exact h.elim
  · rw [hp]
    exact h.silent rfl

theorem Tells.step {slot : Slot} (h : Tells s id past (t.pool.slot id)) (hrun : Run s past t)
    (hbefalls : Befalls t q id m slot) : Tells s id (past ++ [m]) slot := by
  cases hbefalls with
  | nothing hsame hsilent => exact hsame ▸ h.silent hsilent
  | received e hmove hstream hfilled =>
    subst hmove
    exact hfilled ▸ h.receive hstream
  | swept fault hmove hclosing hfilled =>
    subst hmove
    exact hfilled ▸ h.sweep hrun hclosing
  | taken result hmove hfilled =>
    subst hfilled
    trivial

/-! ## Runs -/

theorem Run.caller_of_waited (h : Run s ms t) (hsound : s.Sound)
    (hc : s.caller q = some ⟨id, phase⟩) (hphase : phase.hasWaited = true) :
    ∃ phase', t.caller q = some ⟨id, phase'⟩ ∧ phase'.hasWaited = true := by
  induction h generalizing phase with
  | nil => exact ⟨phase, hc, hphase⟩
  | cons hstep _ ih =>
    obtain ⟨phase', hc', hphase', _⟩ := hstep.befalls hsound hc hphase
    exact ih (hstep.sound hsound) hc' hphase'

/-- The slot of a request tells of all moves, for as long as the request has it. -/
theorem Run.tells (h : Run t ms u) (hsound : t.Sound) (hrun : Run s past t)
    (hc : t.caller q = some ⟨id, phase⟩) (hphase : phase.hasWaited = true)
    (htells : phase.waits = true → Tells s id past (t.pool.slot id)) :
    ∃ phase', u.caller q = some ⟨id, phase'⟩ ∧
      (phase'.waits = true → Tells s id (past ++ ms) (u.pool.slot id)) := by
  induction h generalizing past phase with
  | nil =>
    rw [List.append_nil]
    exact ⟨phase, hc, htells⟩
  | @cons t t' u m ms hstep _ ih =>
    obtain ⟨phase', hc', hphase', hbefalls⟩ := hstep.befalls hsound hc hphase
    have hrest := ih (hstep.sound hsound) (hrun.append (.cons hstep .nil)) hc' hphase'
      fun hwaits' => (htells (hbefalls hwaits').1).step hrun (hbefalls hwaits').2
    rwa [List.append_assoc] at hrest

/-- A result that nobody takes, and on which no answer comes, stays where it is. -/
theorem Run.keeps_result (h : Run s ms t) (hsound : s.Sound) {result : Except CallFault Envelope}
    (hc : s.caller q = some ⟨id, phase⟩) (hphase : phase.hasWaited = true)
    (hslot : phase.waits = true → s.pool.slot id = .completed result)
    (hnone : answers id ms = 0) (huntaken : ∀ result', .take q result' ∉ ms) :
    ∃ phase', t.caller q = some ⟨id, phase'⟩ ∧
      (phase'.waits = true → t.pool.slot id = .completed result) := by
  induction h generalizing phase with
  | nil => exact ⟨phase, hc, hslot⟩
  | @cons s s' t m ms hstep _ ih =>
    obtain ⟨phase', hc', hphase', hbefalls⟩ := hstep.befalls hsound hc hphase
    have hsplit : answers id [m] + answers id ms = 0 := (answers_append [m] ms).symm.trans hnone
    refine ih (hstep.sound hsound) hc' hphase' (fun hwaits' => ?_) (by omega)
      fun result' hmem => huntaken result' (List.mem_cons_of_mem m hmem)
    obtain ⟨hwaits, hbefalls⟩ := hbefalls hwaits'
    cases hbefalls with
    | nothing hsame _ => exact hsame.trans (hslot hwaits)
    | received e hmove hstream _ =>
      subst hmove
      have hone : answers id [.receive e] = 1 := by simp [answers, hstream]
      omega
    | swept fault _ _ hfilled =>
      rw [hfilled, StreamPool.sweep, hslot hwaits]
      exact hslot hwaits
    | taken result' hmove _ =>
      subst hmove
      exact absurd (List.mem_cons_self ..) (huntaken result')

/-- A pool that is being closed was closed with that fault. -/
theorem Run.closed_with (h : Run s ms t) {fault : CallFault} {i : Nat}
    (hclosing : t.closing = some (fault, i)) :
    (∃ j, s.closing = some (fault, j)) ∨ .close fault ∈ ms := by
  induction h with
  | nil => exact .inl ⟨i, hclosing⟩
  | @cons s s' t m ms hstep _ ih =>
    rcases ih hclosing with ⟨j, hs'⟩ | hmem
    · cases hstep with
      | close fault' _ =>
        cases hs'
        exact .inr (List.mem_cons_self ..)
      | sweep hs _ =>
        cases hs'
        exact .inl ⟨_, hs⟩
      | _ => exact .inl ⟨j, hs'⟩
    · exact .inr (List.mem_cons_of_mem m hmem)

/-- What a request finds that takes a result, told by the moves since its id began to wait. -/
theorem tells_of_take {result : Except CallFault Envelope} (hsound : s.Sound)
    (hc : s.caller q = some ⟨id, .armed⟩) (hslot : s.pool.slot id = .waiting) (hrun : Run s ms t)
    (htake : Step t (.take q result) u) (hne : result ≠ .error .closed) :
    Tells s id ms (.completed result) := by
  obtain ⟨phase, hphase, htells⟩ := hrun.tells hsound .nil hc rfl fun _ => by
    rw [hslot]
    exact (rfl : answers id [] = 0)
  cases htake with
  | take hc' hholds hp =>
    cases hphase.symm.trans hc'
    rcases StreamPool.response_eq_some hp with ⟨hcompleted, _⟩ | ⟨hclosed, _⟩
    · rw [← hcompleted]
      exact htells (waits_of_holds hholds)
    · exact absurd hclosed hne

/-- A request that finds its id when the pool is closed takes the fault of that, if no answer comes
after it. -/
theorem take_of_swept {result : Except CallFault Envelope} {fault : CallFault} (hsound : s.Sound)
    (hc : s.caller q = some ⟨id, .armed⟩) (hrun : Run s ms t) (htake : Step t (.take q result) u)
    (hswept : Swept s id fault ms late) (hnone : answers id late = 0)
    (huntaken : ∀ result', .take q result' ∉ late) : result = .error fault := by
  obtain ⟨early, mid, rfl, hearly, hclosing, hwaiting⟩ := hswept
  have hmid := hearly.sound hsound
  obtain ⟨before, hcmid, hwaited⟩ := hearly.caller_of_waited hsound hc rfl
  have hlt : id < mid.pool.size := StreamPool.lt_size_of_slot hwaiting nofun
  obtain ⟨phase, hphase, hslot⟩ : ∃ phase, t.caller q = some ⟨id, phase⟩ ∧
      (phase.waits = true → t.pool.slot id = .completed (.error fault)) := by
    cases hearly.suffix hrun with
    | cons hsweep hlate =>
      cases hsweep.unique (.sweep hclosing hlt)
      refine hlate.keeps_result (hsweep.sound hmid) hcmid hwaited (fun _ => ?_) hnone huntaken
      show (mid.pool.sweep fault id).slot id = _
      rw [StreamPool.sweep, hwaiting]
      exact StreamPool.slot_setSlot_self _ hlt
  cases htake with
  | take hc' hholds hp =>
    cases hphase.symm.trans hc'
    rw [StreamPool.response, hslot (waits_of_holds hholds)] at hp
    cases hp
    rfl

/-- In every run of a pool that is not itself closed with the report of a second answer, a result
that reports one names the stream of its request. From the time on at which the id waited, two
answers were received on it, or one after the pool was closed while the id still waited. And a
request that still waits when the pool is closed takes the fault that it was closed with, if no
answer is received on its id from then on. -/
theorem take_of_wait {size : Nat} {before after : List Move} {r : Traffic}
    {result : Except CallFault Envelope} (hbefore : Run (.new size) before r)
    (hid : r.caller q = some ⟨id, .claimed⟩) (harm : Step r (.arm q) s) (hafter : Run s after t)
    (htake : Step t (.take q result) u)
    (hclose : ∀ stream, .close (.violation (.completedTwice stream)) ∉ before ++ after) :
    (∀ stream, result = .error (.violation (.completedTwice stream)) →
      stream.toInt = id ∧ AnsweredAgain s id after) ∧
    ∀ fault late, Swept s id fault after late → answers id late = 0 →
      (∀ result', .take q result' ∉ late) → result = .error fault := by
  have hsoundr := hbefore.sound (sound_new size)
  have hsound := harm.sound hsoundr
  obtain ⟨hc, hslot⟩ : s.caller q = some ⟨id, .armed⟩ ∧ s.pool.slot id = .waiting := by
    cases harm.unique (.arm hid)
    refine ⟨?_, StreamPool.slot_setSlot_self _ (hsoundr.lt_size hid rfl)⟩
    rw [caller_put hid, if_pos rfl]
  refine ⟨?again, fun fault late => take_of_swept hsound hc hafter htake⟩
  case again =>
    rintro stream rfl
    rcases tells_of_take hsound hc hslot hafter htake (by simp) with ⟨late, hswept, _⟩ | hagain
    · obtain ⟨early, mid, rfl, hearly, hclosing, _⟩ := hswept
      have hfrom : Run (.new size) (before ++ .arm q :: early) mid :=
        hbefore.append (.cons harm hearly)
      rcases hfrom.closed_with hclosing with ⟨_, hnew⟩ | hmem
      · cases hnew
      · refine absurd ?_ (hclose stream)
        simp only [List.mem_append, List.mem_cons] at hmem ⊢
        rcases hmem with hmem | hmem | hmem
        · exact .inl hmem
        · cases hmem
        · exact .inr (.inl hmem)
    · obtain ⟨_, hfault, hstream, hagain⟩ := hagain
      cases hfault
      exact ⟨hstream, hagain⟩

/-- An answer on stream 0, without a body. -/
def emptyAnswer : Envelope := ⟨0x84, .none, 0, .ready, []⟩

/-- A request that is answered twice before it looks. -/
theorem take_of_wait_answered_twice : ∃ r s t u,
    Run (.new 1) [.enter, .claim 0 0] r ∧ Step r (.arm 0) s ∧
    Run s [.recheck 0, .send 0, .noteSent 0, .receive emptyAnswer, .receive emptyAnswer] t ∧
    Step t (.take 0 (.error (.violation (.completedTwice 0)))) u ∧
    AnsweredAgain s 0
      [.recheck 0, .send 0, .noteSent 0, .receive emptyAnswer, .receive emptyAnswer] := by
  obtain ⟨r, s, t, u, hbefore, hid, harm, hafter, htake⟩ : ∃ r s t u,
      Run (.new 1) [.enter, .claim 0 0] r ∧ r.caller 0 = some ⟨0, .claimed⟩ ∧ Step r (.arm 0) s ∧
      Run s [.recheck 0, .send 0, .noteSent 0, .receive emptyAnswer, .receive emptyAnswer] t ∧
      Step t (.take 0 (.error (.violation (.completedTwice 0)))) u :=
    ⟨_, _, _, _, .cons (.enter rfl) (.cons (.claim rfl rfl) .nil), rfl, .arm rfl,
      .cons (.recheck rfl) (.cons (.send rfl) (.cons (.noteSent rfl) (.cons (.receive _)
        (.cons (.receive _) .nil)))), .take rfl rfl rfl⟩
  have htold := take_of_wait hbefore hid harm hafter htake (by simp)
  exact ⟨r, s, t, u, hbefore, harm, hafter, htake, (htold.1 0 rfl).2⟩

/-- The only answer of a request comes after the pool was closed and before the request looks: it
finds the report of a second answer instead of why the pool was closed. -/
theorem completedTwice_of_one_answer : ∃ s t,
    Run (.new 1) [.enter, .claim 0 0, .arm 0, .recheck 0, .send 0, .noteSent 0, .close .closed,
      .sweep, .receive emptyAnswer] s ∧
    answers 0 [.enter, .claim 0 0, .arm 0, .recheck 0, .send 0, .noteSent 0, .close .closed, .sweep,
      .receive emptyAnswer] = 1 ∧
    Step s (.take 0 (.error (.violation (.completedTwice 0)))) t := by
  refine ⟨_, _, .cons (.enter rfl) (.cons (.claim rfl rfl) (.cons (.arm rfl) (.cons (.recheck rfl)
    (.cons (.send rfl) (.cons (.noteSent rfl) (.cons (.close _ rfl) (.cons (.sweep rfl (by decide))
      (.cons (.receive _) .nil)))))))), rfl, .take rfl rfl rfl⟩

end Traffic

end CqlClient
