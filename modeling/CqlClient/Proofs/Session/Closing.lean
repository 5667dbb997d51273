import CqlClient.Proofs.Session.Traffic
import Mathlib.Logic.Function.Basic
import Mathlib.Logic.Relation

/-!
# Closing a pool that is in use

A request gives up its slot in three steps: it takes the lock of the slot, looks at the slot and at
whether the pool is closed, and writes what follows from that. `LockedTraffic` is `Traffic` with
these steps taken apart, so that the pool may be closed, and other slots swept, between them; no
other step touches a slot that is locked.

* `LockedTraffic.Ordered`: whoever has found the pool open holds a lock that the sweep has yet to
  come to, and behind the sweep only requests that are still to look again may wait;
* `Step.ordered`, `Reachable.ordered`: this is so after any step, and in every state;
* `closing_misses_nobody`: once every slot is swept, nobody waits and nobody ever will.
-/

namespace CqlClient

/-- How far a request has come with giving up its slot. -/
inductive Drop where
  /-- It has the lock. -/
  | locked
  /-- It has looked, and knows whether the id is to be released or abandoned. -/
  | looked (releases : Bool)

structure LockedTraffic where
  traffic : Traffic
  /-- The requests that hold the lock of their slot. -/
  drops : Nat → Option Drop

/-- Nobody waits for the result of the slot, and it is not abandoned. -/
def Slot.rests : Slot → Bool
  | waiting | abandoned => false
  | free | completed _ | consumed => true

namespace StreamPool

variable (p : StreamPool)

theorem setSlot_rests (id i : Nat) {slot : Slot} (h : slot.rests = true) :
    (p.setSlot i slot).slot id = p.slot id ∨ ((p.setSlot i slot).slot id).rests = true := by
  rw [slot_setSlot]
  split
  · exact .inr h
  · exact .inl rfl

theorem complete_rests (e : Envelope) (id : Nat) :
    (p.complete e).2.slot id = p.slot id ∨ ((p.complete e).2.slot id).rests = true := by
  rcases p.complete_cases e with ⟨hp, _⟩ | ⟨_, hp⟩ | ⟨_, hp⟩ | ⟨_, hp⟩
  · exact .inl (congrArg (·.slot id) hp)
  · rw [hp]
    exact p.setSlot_rests id _ rfl
  · rw [hp]
    exact p.setSlot_rests id _ rfl
  · rw [hp]
    exact p.setSlot_rests id _ rfl

theorem response_rests {p p' : StreamPool} {i : Nat} {result : Except CallFault Envelope}
    (h : p.response i = (some result, p')) (id : Nat) :
    p'.slot id = p.slot id ∨ (p'.slot id).rests = true := by
  rcases response_eq_some h with ⟨_, rfl⟩ | ⟨_, rfl⟩
  · exact p.setSlot_rests id i rfl
  · exact .inl rfl

theorem swept_rests (slot : Slot) (fault : CallFault) : (slot.swept fault).rests = true := by
  cases slot <;> rfl

theorem sweep_rests (fault : CallFault) (i id : Nat) :
    (p.sweep fault i).slot id = p.slot id ∨ ((p.sweep fault i).slot id).rests = true := by
  rw [slot_sweep]
  split
  · exact .inr (swept_rests _ fault)
  · exact .inl rfl

end StreamPool

namespace Traffic

namespace Move

/-- The request whose step it is. -/
def request? : Move → Option Nat
  | turnAway q | claim q _ | arm q | recheck q | send q | noteSent q | take q _ | vacate q
  | release q => some q
  | enter | receive _ | close _ | sweep => none

def isVacate : Move → Bool
  | vacate _ => true
  | _ => false

/-- The slot whose lock is held for the time of a move. -/
def Touches (s : Traffic) (id : Nat) : Move → Prop
  | arm q | take q _ | vacate q => ∃ phase, s.caller q = some ⟨id, phase⟩
  | receive e => e.stream.toInt = id
  | sweep => ∃ fault, s.closing = some (fault, id)
  | _ => False

end Move

/-! ## Steps of `Traffic` -/

variable {s t : Traffic} {m : Move} {q q' id : Nat} {phase : Phase}

/-- A request stays as it is while others take their steps. -/
theorem Step.caller_of_ne {c : Caller} (hstep : Step s m t) (hc : s.caller q = some c)
    (hne : m.request? ≠ some q) : t.caller q = some c := by
  have hput {q' : Nat} {c₀ c' : Caller} {pool : StreamPool} (hc' : s.caller q' = some c₀)
      (hq : some q' ≠ some q) : (s.put q' c' pool).caller q = some c := by
    rw [caller_put hc', if_neg fun heq => hq (congrArg some heq.symm)]
    exact hc
  cases hstep with
  | enter =>
    obtain ⟨hlt, _⟩ := List.getElem?_eq_some_iff.mp hc
    rw [caller_enter, if_neg (Nat.ne_of_lt hlt)]
    exact hc
  | turnAway hc' => exact hput hc' hne
  | claim hc' => exact hput hc' hne
  | arm hc' => exact hput hc' hne
  | recheck hc' => exact hput hc' hne
  | send hc' => exact hput hc' hne
  | noteSent hc' => exact hput hc' hne
  | receive => exact hc
  | take => exact hc
  | abandon hc' => exact hput hc' hne
  | vacate hc' => exact hput hc' hne
  | release hc' => exact hput hc' hne
  | close => exact hc
  | sweep => exact hc

/-- Either a step leaves the sweep where it is, or it begins it, or it takes it to the next slot. -/
theorem Step.closing_cases (hstep : Step s m t) :
    t.closing = s.closing ∨
      (∃ fault, s.pool.closed = false ∧ t.closing = some (fault, 0)) ∨
      ∃ fault id, m = .sweep ∧ s.closing = some (fault, id) ∧ id < s.pool.size ∧
        t.closing = some (fault, id + 1) ∧ t.pool.slot id = (s.pool.slot id).swept fault := by
  cases hstep with
  | enter => exact .inl rfl
  | turnAway => exact .inl rfl
  | claim => exact .inl rfl
  | arm => exact .inl rfl
  | recheck => exact .inl rfl
  | send => exact .inl rfl
  | noteSent => exact .inl rfl
  | receive => exact .inl rfl
  | take => exact .inl rfl
  | abandon => exact .inl rfl
  | vacate => exact .inl rfl
  | release => exact .inl rfl
  | close fault hopen => exact .inr (.inl ⟨fault, hopen, rfl⟩)
  | @sweep fault id hclosing hid =>
    have hslot := (s.pool.slot_sweep id id fault).trans (if_pos rfl)
    exact .inr (.inr ⟨fault, id, rfl, hclosing, hid, rfl, hslot⟩)

theorem Step.size_eq (hstep : Step s m t) : t.pool.size = s.pool.size := by
  cases hstep with
  | enter => rfl
  | turnAway => rfl
  | claim => rfl
  | arm => exact StreamPool.size_setSlot ..
  | recheck => rfl
  | send => rfl
  | noteSent => rfl
  | receive e => exact (StreamPool.AgreesOff.complete s.pool e).size
  | take _ _ hp => exact (StreamPool.AgreesOff.response hp).size
  | @abandon q id phase pool hc hmay hp =>
    have hagrees := StreamPool.AgreesOff.vacate s.pool id (phase = .sent)
    rw [hp] at hagrees
    exact hagrees.size
  | @vacate q id phase pool hc hmay hp =>
    have hagrees := StreamPool.AgreesOff.vacate s.pool id (phase = .sent)
    rw [hp] at hagrees
    exact hagrees.size
  | release => rfl
  | close => rfl
  | @sweep fault id => exact (StreamPool.AgreesOff.sweep s.pool id fault).size

/-- Whether a request has an id that waits, and is still to find that the pool is closed. -/
def Phase.isUnsettled : Phase → Bool
  | .armed | .refused => true
  | _ => false

theorem owns_of_unsettled (h : phase.isUnsettled = true) : phase.owns = true := by
  cases phase <;> first | rfl | cases h

theorem not_holds_of_unsettled (h : phase.isUnsettled = true) : phase.holds = false := by
  cases phase <;> first | rfl | cases h

/-- In a closed pool, no request that is under way gets its id. -/
theorem Step.unsettled (hstep : Step s m t) (hclosed : s.pool.closed = true)
    (hvacate : m.isVacate = false) (hc : s.caller q = some ⟨id, phase⟩)
    (hphase : phase.isUnsettled = true) :
    ∃ phase', t.caller q = some ⟨id, phase'⟩ ∧ phase'.isUnsettled = true := by
  by_cases hq : m.request? = some q
  · have hother {old : Phase} {id' : Nat} (hc' : s.caller q = some ⟨id', old⟩)
        (hold : old.isUnsettled = false) : False := by
      cases hc.symm.trans hc'
      rw [hphase] at hold
      cases hold
    cases hstep with
    | enter => cases hq
    | turnAway hc' => cases hq; exact (hother hc' rfl).elim
    | claim hc' => cases hq; exact (hother hc' rfl).elim
    | arm hc' => cases hq; exact (hother hc' rfl).elim
    | recheck hc' =>
      cases hq
      cases hc.symm.trans hc'
      refine ⟨.refused, ?_, rfl⟩
      rw [caller_put hc', if_pos rfl, hclosed, if_pos rfl]
    | send hc' => cases hq; exact (hother hc' rfl).elim
    | noteSent hc' => cases hq; exact (hother hc' rfl).elim
    | receive => cases hq
    | take => exact ⟨phase, hc, hphase⟩
    | abandon => cases hvacate
    | vacate => cases hvacate
    | release hc' => cases hq; exact (hother hc' rfl).elim
    | close => cases hq
    | sweep => cases hq
  · exact ⟨phase, hstep.caller_of_ne hc hq, hphase⟩

/-- A slot comes to wait only for a request that is about to look again, and is abandoned only by
its request. -/
theorem Step.slot_cases (hstep : Step s m t) (hvacate : m.isVacate = false) (id : Nat) :
    t.pool.slot id = s.pool.slot id ∨ (t.pool.slot id).rests = true ∨
      ∃ q, t.pool.slot id = .waiting ∧ t.caller q = some ⟨id, .armed⟩ := by
  cases hstep with
  | enter => exact .inl rfl
  | turnAway => exact .inl rfl
  | claim => exact .inl rfl
  | @arm q id' hc =>
    have hslot : (s.pool.setSlot id' .waiting).slot id =
        if id = id' ∧ id' < s.pool.size then .waiting else s.pool.slot id :=
      StreamPool.slot_setSlot ..
    by_cases heq : id = id' ∧ id' < s.pool.size
    · rw [if_pos heq] at hslot
      exact .inr (.inr ⟨q, hslot, by rw [caller_put hc, if_pos rfl, heq.1]⟩)
    · rw [if_neg heq] at hslot
      exact .inl hslot
  | recheck => exact .inl rfl
  | send => exact .inl rfl
  | noteSent => exact .inl rfl
  | receive e => exact (s.pool.complete_rests e id).imp_right .inl
  | take _ _ hp => exact (StreamPool.response_rests hp id).imp_right .inl
  | abandon => cases hvacate
  | vacate => cases hvacate
  | release => exact .inl rfl
  | close => exact .inl rfl
  | sweep => exact (s.pool.sweep_rests _ _ id).imp_right .inl

/-- A slot behind the sweep rests, or waits for a request that is still to find the pool closed. -/
def IsPast (s : Traffic) (id : Nat) : Prop :=
  (s.pool.slot id).rests = true ∨
    s.pool.slot id = .waiting ∧
      ∃ q phase, s.caller q = some ⟨id, phase⟩ ∧ phase.isUnsettled = true

theorem Step.isPast (hstep : Step s m t) (hclosed : s.pool.closed = true)
    (hvacate : m.isVacate = false) (h : s.IsPast id) : t.IsPast id := by
  rcases hstep.slot_cases hvacate id with hslot | hrests | ⟨q, hwaiting, hc⟩
  · rw [IsPast, hslot]
    rcases h with hrests | ⟨hwaiting, q, phase, hc, hphase⟩
    · exact .inl hrests
    · exact .inr ⟨hwaiting, q, hstep.unsettled hclosed hvacate hc hphase⟩
  · exact .inl hrests
  · exact .inr ⟨hwaiting, q, .armed, hc, rfl⟩

/-- In a closed pool, whoever holds an id has done so before. -/
theorem Step.holder (hstep : Step s m t) (hclosed : s.pool.closed = true)
    (hc : t.caller q = some ⟨id, phase⟩) (hholds : phase.holds = true) :
    ∃ phase', s.caller q = some ⟨id, phase'⟩ ∧ phase'.holds = true := by
  have hput {q' : Nat} {c c' : Caller} {pool : StreamPool}
      (hput : (s.put q' c' pool).caller q = some ⟨id, phase⟩) (hc' : s.caller q' = some c)
      (hid : c'.id = c.id) (hphase : c'.phase.holds = true → c.phase.holds = true) :
      ∃ phase', s.caller q = some ⟨id, phase'⟩ ∧ phase'.holds = true := by
    rcases caller_put_eq_some hc' hput with ⟨rfl, rfl⟩ | ⟨_, hold⟩
    · obtain rfl : id = c.id := hid
      exact ⟨c.phase, hc', hphase hholds⟩
    · exact ⟨phase, hold, hholds⟩
  cases hstep with
  | enter hopen =>
    rw [hclosed] at hopen
    cases hopen
  | turnAway hc' => exact hput hc hc' rfl (fun h => by cases h)
  | claim hc' =>
    rcases caller_put_eq_some hc' hc with ⟨rfl, heq⟩ | ⟨_, hold⟩
    · cases heq
      cases hholds
    · exact ⟨phase, hold, hholds⟩
  | arm hc' => exact hput hc hc' rfl (fun h => by cases h)
  | recheck hc' =>
    rw [hclosed, if_pos rfl] at hc
    exact hput hc hc' rfl (fun h => by cases h)
  | send hc' => exact hput hc hc' rfl (fun _ => rfl)
  | noteSent hc' => exact hput hc hc' rfl (fun _ => rfl)
  | receive => exact ⟨phase, hc, hholds⟩
  | take => exact ⟨phase, hc, hholds⟩
  | abandon hc' => exact hput hc hc' rfl (fun h => by cases h)
  | vacate hc' => exact hput hc hc' rfl (fun h => by cases h)
  | release hc' => exact hput hc hc' rfl (fun h => by cases h)
  | close => exact ⟨phase, hc, hholds⟩
  | sweep => exact ⟨phase, hc, hholds⟩

/-- A request writes what it has decided to make of its slot. -/
theorem Sound.settle (h : s.Sound) (hc : s.caller q = some ⟨id, phase⟩)
    (hmay : phase.mayLeave = true) (releases : Bool) :
    (s.put q ⟨id, if releases then .leaving else .gone⟩
      (s.pool.setSlot id (if releases then .free else .abandoned))).Sound := by
  have ho := owns_of_mayLeave hmay
  refine h.ownerStep hc ho (.setSlot _ _ _) fun hown => ?_
  have hslot := StreamPool.slot_setSlot_self (s := if releases then .free else .abandoned)
    (h.lt_size hc ho)
  cases releases with
  | true =>
    refine Tidy.owned hown (h.owner hc ho).2.1 ?_
    show Suits ((s.pool.setSlot id .free).slot id) .leaving
    rw [show (s.pool.setSlot id .free).slot id = .free from hslot]
    exact ⟨rfl, fun heq => by cases heq⟩
  | false => exact Tidy.abandoned hown (h.owner hc ho).2.1 hslot

end Traffic

/-! ## Steps under a lock -/

namespace LockedTraffic

open Function Relation Traffic

def new (size : Nat) : LockedTraffic := ⟨.new size, fun _ => none⟩

/-- A request has the lock of its slot. -/
def IsLocked (x : LockedTraffic) (id : Nat) : Prop :=
  ∃ q phase, x.traffic.caller q = some ⟨id, phase⟩ ∧ (x.drops q).isSome = true

/-- A request comes further with giving up its slot. -/
def setDrop (x : LockedTraffic) (q : Nat) (drop : Drop) : LockedTraffic :=
  { x with drops := update x.drops q (some drop) }

/-- A request writes to its slot and lets go of the lock. -/
def write (x : LockedTraffic) (q id : Nat) (releases : Bool) : LockedTraffic :=
  ⟨x.traffic.put q ⟨id, if releases then .leaving else .gone⟩
    (x.traffic.pool.setSlot id (if releases then .free else .abandoned)), update x.drops q none⟩

inductive Step (x : LockedTraffic) : LockedTraffic → Prop
  | move {m : Move} {t : Traffic} : m.isVacate = false →
      (∀ q, m.request? = some q → x.drops q = none) →
      (∀ id, m.Touches x.traffic id → ¬ x.IsLocked id) → x.traffic.Step m t →
      Step x { x with traffic := t }
  | lock {q id : Nat} {phase : Phase} : x.traffic.caller q = some ⟨id, phase⟩ →
      phase.mayLeave = true → ¬ x.IsLocked id → Step x (x.setDrop q .locked)
  | look {q id : Nat} {phase : Phase} : x.traffic.caller q = some ⟨id, phase⟩ →
      x.drops q = some .locked →
      Step x (x.setDrop q (.looked (x.traffic.pool.vacate id (phase = .sent)).1))
  | write {q id : Nat} {phase : Phase} {releases : Bool} :
      x.traffic.caller q = some ⟨id, phase⟩ → x.drops q = some (.looked releases) →
      Step x (x.write q id releases)

/-- The states that a pool and its requests come to. -/
def Reachable (size : Nat) (x : LockedTraffic) : Prop := ReflTransGen Step (.new size) x

variable {x y : LockedTraffic} {q id : Nat} {phase : Phase}

/-- Who gives up a slot does what `StreamPool.vacate` does, if nobody comes between. -/
theorem steps_vacate {t : Traffic} (hc : x.traffic.caller q = some ⟨id, phase⟩)
    (hmay : phase.mayLeave = true) (hlock : ¬ x.IsLocked id)
    (hstep : x.traffic.Step (.vacate q) t) :
    ReflTransGen Step x ⟨t, update x.drops q none⟩ := by
  have hlocked : Step x (x.setDrop q .locked) := .lock hc hmay hlock
  have hlooked := Step.look (x := x.setDrop q .locked) hc (update_self ..)
  have hwritten := Step.write (x := (x.setDrop q .locked).setDrop q
    (.looked (x.traffic.pool.vacate id (phase = .sent)).1)) hc (update_self ..)
  have hafter : ((x.setDrop q .locked).setDrop q
      (.looked (x.traffic.pool.vacate id (phase = .sent)).1)).write q id
        (x.traffic.pool.vacate id (phase = .sent)).1 = ⟨t, update x.drops q none⟩ := by
    simp only [write, setDrop, update_idem]
    refine congrArg (LockedTraffic.mk · _) ?_
    cases hstep with
    | @abandon q' id' phase' pool hc' hmay' hp =>
      cases hc.symm.trans hc'
      rcases x.traffic.pool.vacate_cases id (phase = .sent) with ⟨_, _, _, hv⟩ | ⟨_, hv⟩
      · rw [hv] at hp ⊢
        cases hp
        rfl
      · rw [hv] at hp
        cases hp
    | @vacate q' id' phase' pool hc' hmay' hp =>
      cases hc.symm.trans hc'
      rcases x.traffic.pool.vacate_cases id (phase = .sent) with ⟨_, _, _, hv⟩ | ⟨_, hv⟩
      · rw [hv] at hp
        cases hp
      · rw [hv] at hp ⊢
        cases hp
        rfl
  rw [hafter] at hwritten
  exact ((ReflTransGen.single hlocked).tail hlooked).tail hwritten

theorem not_isLocked (hfree : ∀ q, x.drops q = none) : ¬ x.IsLocked id := by
  rintro ⟨q, phase, _, hlocked⟩
  rw [hfree q] at hlocked
  cases hlocked

/-- Nothing that can happen to a pool is lost by taking its steps apart. -/
theorem steps_of_run {ms : List Move} {t : Traffic} (hfree : ∀ q, x.drops q = none)
    (hrun : x.traffic.Run ms t) : ReflTransGen Step x { x with traffic := t } := by
  obtain ⟨s, drops⟩ := x
  change s.Run ms t at hrun
  induction hrun with
  | nil => exact .refl
  | @cons s t u m ms hstep _ ih =>
    refine ReflTransGen.trans ?_ (ih hfree)
    cases hvacate : m.isVacate with
    | false =>
      exact .single (.move hvacate (fun q _ => hfree q) (fun _ _ => not_isLocked hfree) hstep)
    | true =>
      cases m with
      | vacate q =>
        obtain ⟨id, phase, hc, hmay⟩ : ∃ id phase, s.caller q = some ⟨id, phase⟩ ∧
            phase.mayLeave = true := by
          cases hstep with
          | abandon hc hmay => exact ⟨_, _, hc, hmay⟩
          | vacate hc hmay => exact ⟨_, _, hc, hmay⟩
        have hsteps := steps_vacate (x := ⟨s, drops⟩) hc hmay (not_isLocked hfree) hstep
        have hsame : update drops q none = drops := update_eq_self_iff.mpr (hfree q).symm
        rwa [hsame] at hsteps
      | _ => cases hvacate

structure Ordered (x : LockedTraffic) : Prop where
  sound : x.traffic.Sound
  /-- Whoever has a lock can give up its slot. -/
  dropping : ∀ q d, x.drops q = some d →
    ∃ id phase, x.traffic.caller q = some ⟨id, phase⟩ ∧ phase.mayLeave = true
  /-- Whoever has found the pool open has a lock that the sweep has yet to come to. -/
  ahead : ∀ q id phase, x.traffic.caller q = some ⟨id, phase⟩ →
    x.drops q = some (.looked false) → ∀ fault next, x.traffic.closing = some (fault, next) →
      next ≤ id
  /-- Behind the sweep, nothing is abandoned and only those wait who will find the pool closed. -/
  behind : ∀ fault next, x.traffic.closing = some (fault, next) → ∀ id, id < next →
    x.traffic.IsPast id

/-! ## Any step keeps the order -/

theorem ordered_new (size : Nat) : (new size).Ordered where
  sound := sound_new size
  dropping q d h := by cases h
  ahead q id phase hc h := by cases h
  behind fault next h := by cases h

namespace Ordered

theorem move {m : Move} {t : Traffic} (h : x.Ordered) (hvacate : m.isVacate = false)
    (hrequest : ∀ q, m.request? = some q → x.drops q = none)
    (htouches : ∀ id, m.Touches x.traffic id → ¬ x.IsLocked id) (hstep : x.traffic.Step m t) :
    Ordered { x with traffic := t } := by
  have hstays {q : Nat} {d : Drop} {c : Caller} (hd : x.drops q = some d)
      (hc : x.traffic.caller q = some c) : t.caller q = some c := by
    refine hstep.caller_of_ne hc fun hq => ?_
    rw [hrequest q hq] at hd
    cases hd
  refine ⟨hstep.sound h.sound, ?dropping, ?ahead, ?behind⟩
  case dropping =>
    intro q d hd
    obtain ⟨id, phase, hc, hmay⟩ := h.dropping q d hd
    exact ⟨id, phase, hstays hd hc, hmay⟩
  case ahead =>
    intro q id phase hc hd fault next hclosing
    obtain ⟨id', phase', hc', hmay⟩ := h.dropping q _ hd
    cases hc.symm.trans (hstays hd hc')
    rcases hstep.closing_cases with hsame | ⟨fault', _, hfirst⟩ |
      ⟨fault', k, rfl, hold, _, hnext, _⟩
    · exact h.ahead q id phase hc' hd fault next (hsame.symm.trans hclosing)
    · cases hfirst.symm.trans hclosing
      exact Nat.zero_le id
    · -- The slot under the sweep is not locked, so it is another one.
      cases hnext.symm.trans hclosing
      have hle := h.ahead q id phase hc' hd fault k hold
      have hne : k ≠ id := by
        rintro rfl
        exact htouches k ⟨fault, hold⟩ ⟨q, phase, hc', by rw [hd]; rfl⟩
      omega
  case behind =>
    intro fault next hclosing id hlt
    have hpast (k : Nat) (hk : x.traffic.closing = some (fault, k)) (hlt : id < k) : t.IsPast id :=
      hstep.isPast (h.sound.closing fault k hk) hvacate (h.behind fault k hk id hlt)
    rcases hstep.closing_cases with hsame | ⟨fault', _, hfirst⟩ |
      ⟨fault', k, rfl, hk, _, hnext, hswept⟩
    · exact hpast next (hsame.symm.trans hclosing) hlt
    · cases hfirst.symm.trans hclosing
      exact absurd hlt (Nat.not_lt_zero id)
    · cases hnext.symm.trans hclosing
      by_cases heq : id = k
      · subst heq
        exact .inl (hswept ▸ StreamPool.swept_rests _ _)
      · exact hpast k hk (by omega)

/-- A step with the lock leaves the traffic as it is. -/
theorem setDrop {drop : Drop} (h : x.Ordered) (hc : x.traffic.caller q = some ⟨id, phase⟩)
    (hmay : phase.mayLeave = true)
    (hahead : drop = .looked false → x.traffic.closing = none) :
    (x.setDrop q drop).Ordered := by
  refine ⟨h.sound, ?dropping, ?ahead, h.behind⟩
  case dropping =>
    intro q' d hd
    by_cases hq : q' = q
    · subst hq
      exact ⟨id, phase, hc, hmay⟩
    · exact h.dropping q' d ((update_of_ne hq ..).symm.trans hd)
  case ahead =>
    intro q' id' phase' hc' hd fault next hclosing
    by_cases hq : q' = q
    · subst hq
      have hself : (x.setDrop q' drop).drops q' = some drop := update_self ..
      have hnone := hahead (Option.some.inj (hself.symm.trans hd))
      cases hnone.symm.trans hclosing
    · exact h.ahead q' id' phase' hc' ((update_of_ne hq ..).symm.trans hd) fault next hclosing

theorem write {releases : Bool} (h : x.Ordered) (hc : x.traffic.caller q = some ⟨id, phase⟩)
    (hd : x.drops q = some (.looked releases)) : (x.write q id releases).Ordered := by
  obtain ⟨_, _, hholder, hmay⟩ := h.dropping q _ hd
  cases hc.symm.trans hholder
  have hother {q' : Nat} {d : Drop} (hd' : update x.drops q none q' = some d) :
      q' ≠ q ∧ x.drops q' = some d := by
    by_cases hq : q' = q
    · subst hq
      cases (update_self ..).symm.trans hd'
    · exact ⟨hq, (update_of_ne hq ..).symm.trans hd'⟩
  refine ⟨h.sound.settle hc hmay releases, ?dropping, ?ahead, ?behind⟩
  case dropping =>
    intro q' d hd'
    obtain ⟨hq, hd'⟩ := hother hd'
    obtain ⟨id', phase', hc', hmay'⟩ := h.dropping q' d hd'
    exact ⟨id', phase', by rw [LockedTraffic.write, caller_put hc, if_neg hq]; exact hc', hmay'⟩
  case ahead =>
    intro q' id' phase' hc' hd' fault next hclosing
    obtain ⟨hq, hd'⟩ := hother hd'
    rw [LockedTraffic.write, caller_put hc, if_neg hq] at hc'
    exact h.ahead q' id' phase' hc' hd' fault next hclosing
  case behind =>
    intro fault next hclosing id' hlt
    have hslot : (x.write q id releases).traffic.pool.slot id' =
        if id' = id ∧ id < x.traffic.pool.size then (if releases then .free else .abandoned)
        else x.traffic.pool.slot id' := StreamPool.slot_setSlot ..
    by_cases hid : id' = id
    · subst hid
      rw [if_pos ⟨rfl, h.sound.lt_size hc (owns_of_mayLeave hmay)⟩] at hslot
      cases releases with
      | true => exact .inl (hslot ▸ rfl)
      | false => exact absurd (h.ahead q id' phase hc hd fault next hclosing) (Nat.not_le.mpr hlt)
    · rw [if_neg fun hboth => hid hboth.1] at hslot
      rw [IsPast, hslot]
      refine (h.behind fault next hclosing id' hlt).imp_right ?_
      rintro ⟨hwaiting, q', phase', hc', hphase⟩
      refine ⟨hwaiting, q', phase', ?_, hphase⟩
      have hq : q' ≠ q := by
        intro heq
        rw [heq] at hc'
        exact hid (congrArg Caller.id (Option.some.inj (hc'.symm.trans hc)))
      rw [LockedTraffic.write, caller_put hc, if_neg hq]
      exact hc'

end Ordered

theorem Step.ordered (hstep : Step x y) (h : x.Ordered) : y.Ordered := by
  cases hstep with
  | move hvacate hrequest htouches hstep => exact h.move hvacate hrequest htouches hstep
  | lock hc hmay => exact h.setDrop hc hmay nofun
  | @look q id phase hc hd =>
    obtain ⟨id', phase', hc', hmay⟩ := h.dropping q _ hd
    cases hc.symm.trans hc'
    refine h.setDrop hc hmay fun hlooked => ?_
    -- Only in an open pool is an id found to be abandoned.
    rcases x.traffic.pool.vacate_cases id (phase = .sent) with ⟨_, _, hopen, _⟩ | ⟨_, hv⟩
    · cases hclosing : x.traffic.closing with
      | none => rfl
      | some closing =>
        rw [h.sound.closing closing.1 closing.2 hclosing] at hopen
        cases hopen
    · rw [hv] at hlooked
      cases hlooked
  | write hc hd => exact h.write hc hd

theorem Steps.ordered (hsteps : ReflTransGen Step x y) (h : x.Ordered) : y.Ordered := by
  induction hsteps with
  | refl => exact h
  | tail _ hstep ih => exact hstep.ordered ih

theorem Reachable.ordered {size : Nat} (h : Reachable size x) : x.Ordered :=
  Steps.ordered h (ordered_new size)

/-! ## Behind the sweep -/

/-- A pool is closed and every slot of it has been swept. -/
def IsSwept (x : LockedTraffic) : Prop :=
  ∃ fault, x.traffic.closing = some (fault, x.traffic.pool.size)

theorem Ordered.isPast (h : x.Ordered) (hswept : x.IsSwept) (id : Nat) : x.traffic.IsPast id := by
  obtain ⟨fault, hclosing⟩ := hswept
  by_cases hlt : id < x.traffic.pool.size
  · exact h.behind fault _ hclosing id hlt
  · rw [IsPast, StreamPool.slot_of_size_le (Nat.not_lt.mp hlt)]
    exact .inl rfl

/-- Whoever holds an id has a result to take, or has taken it. -/
theorem Ordered.result (h : x.Ordered) (hswept : x.IsSwept)
    (hc : x.traffic.caller q = some ⟨id, phase⟩) (hholds : phase.holds = true) :
    (∃ result, x.traffic.pool.slot id = .completed result) ∨
      x.traffic.pool.slot id = .consumed := by
  have ho := owns_of_waits (waits_of_holds hholds)
  have hinUse := (h.sound.owner hc ho).2.2.1
  rw [waits_of_holds hholds] at hinUse
  rcases h.isPast hswept id with hrests | ⟨_, q', phase', hc', hphase⟩
  · cases hslot : x.traffic.pool.slot id with
    | free => rw [hslot] at hinUse; cases hinUse
    | waiting => rw [hslot] at hrests; cases hrests
    | completed result => exact .inl ⟨result, rfl⟩
    | consumed => exact .inr rfl
    | abandoned => rw [hslot] at hrests; cases hrests
  · cases h.sound.alone hc ho hc' (owns_of_unsettled hphase)
    cases hc.symm.trans hc'
    rw [not_holds_of_unsettled hphase] at hholds
    cases hholds

theorem Ordered.slot_ne_abandoned (h : x.Ordered) (hswept : x.IsSwept) (id : Nat) :
    x.traffic.pool.slot id ≠ .abandoned := by
  intro hslot
  rcases h.isPast hswept id with hrests | ⟨hwaiting, _⟩
  · rw [hslot] at hrests
    cases hrests
  · cases hslot.symm.trans hwaiting

/-- An id is available as soon as no request owns it. -/
theorem Ordered.available_iff (h : x.Ordered) (hswept : x.IsSwept)
    (hid : id < x.traffic.pool.size) :
    x.traffic.pool.available.testBit id = true ↔
      ∀ q phase, x.traffic.caller q = some ⟨id, phase⟩ → phase.owns = false := by
  obtain ⟨owner, hown, hfits⟩ := h.sound.tidy id hid
  constructor
  · intro hbit q phase hc
    have hnone := (h.sound.available hbit).1
    cases hphase : phase.owns with
    | false => rfl
    | true => cases hnone.unique hc hphase
  · intro hnobody
    cases owner with
    | none =>
      rcases hfits with ⟨hbit, _⟩ | ⟨_, habandoned⟩
      · exact hbit
      · exact absurd habandoned (h.slot_ne_abandoned hswept id)
    | some owner =>
      obtain ⟨hc, ho⟩ := (hown owner.1 owner.2).mpr rfl
      rw [hnobody _ _ hc] at ho
      cases ho

theorem Ordered.closed (h : x.Ordered) (hswept : x.IsSwept) : x.traffic.pool.closed = true := by
  obtain ⟨fault, hclosing⟩ := hswept
  exact h.sound.closing fault _ hclosing

/-- Nothing is swept twice, and nothing opens the pool again. -/
theorem Step.swept (hstep : Step x y) (h : x.Ordered) (hswept : x.IsSwept) : y.IsSwept := by
  have hclosed := h.closed hswept
  obtain ⟨fault, hclosing⟩ := hswept
  cases hstep with
  | @move m t hvacate hrequest htouches hstep =>
    refine ⟨fault, ?_⟩
    show t.closing = some (fault, t.pool.size)
    rw [hstep.size_eq]
    rcases hstep.closing_cases with hsame | ⟨_, hopen, _⟩ | ⟨fault', k, _, hk, hlt, _⟩
    · exact hsame.trans hclosing
    · rw [hclosed] at hopen
      cases hopen
    · cases hk.symm.trans hclosing
      exact absurd hlt (Nat.lt_irrefl _)
  | lock => exact ⟨fault, hclosing⟩
  | look => exact ⟨fault, hclosing⟩
  | @write q id phase releases =>
    exact ⟨fault, hclosing.trans
      (congrArg (fun size => some (fault, size)) (StreamPool.size_setSlot ..).symm)⟩

/-- In a closed pool, no request comes to hold an id. -/
theorem Step.holder (hstep : Step x y) (hclosed : x.traffic.pool.closed = true)
    (hc : y.traffic.caller q = some ⟨id, phase⟩) (hholds : phase.holds = true) :
    ∃ phase', x.traffic.caller q = some ⟨id, phase'⟩ ∧ phase'.holds = true := by
  cases hstep with
  | move _ _ _ hstep => exact hstep.holder hclosed hc hholds
  | lock => exact ⟨phase, hc, hholds⟩
  | look => exact ⟨phase, hc, hholds⟩
  | @write q' id' phase' releases hc' =>
    rcases caller_put_eq_some hc' hc with ⟨rfl, heq⟩ | ⟨_, hold⟩
    · cases heq
      cases releases <;> cases hholds
    · exact ⟨phase, hold, hholds⟩

/-- What is so when the sweep is over stays so. -/
theorem Steps.swept (hsteps : ReflTransGen Step x y) (h : x.Ordered) (hswept : x.IsSwept) :
    y.Ordered ∧ y.IsSwept ∧ ∀ q id phase, y.traffic.caller q = some ⟨id, phase⟩ →
      phase.holds = true → ∃ phase', x.traffic.caller q = some ⟨id, phase'⟩ ∧
        phase'.holds = true := by
  induction hsteps with
  | refl => exact ⟨h, hswept, fun q id phase hc hholds => ⟨phase, hc, hholds⟩⟩
  | tail _ hstep ih =>
    obtain ⟨hordered, hswept, hheld⟩ := ih
    refine ⟨hstep.ordered hordered, hstep.swept hordered hswept, fun q id phase hc hholds => ?_⟩
    obtain ⟨phase', hc', hholds'⟩ := hstep.holder (hordered.closed hswept) hc hholds
    exact hheld q id phase' hc' hholds'

/-- Once every slot is swept, and ever after: whoever holds an id has held it by then, and has a
result ready or has taken it; no id is abandoned; no request gets past the first look at the pool;
and an id is available unless it belongs to a request that has not given it up or is still at it. -/
theorem closing_misses_nobody {size : Nat} (hx : Reachable size x) (hswept : x.IsSwept)
    (hlater : ReflTransGen Step x y) :
    (∀ q id phase, y.traffic.caller q = some ⟨id, phase⟩ → phase.holds = true →
      ((∃ result, y.traffic.pool.slot id = .completed result) ∨
        y.traffic.pool.slot id = .consumed) ∧
      (y.traffic.pool.response id).1.isSome = true ∧
      ∃ phase', x.traffic.caller q = some ⟨id, phase'⟩ ∧ phase'.holds = true) ∧
    (∀ id, y.traffic.pool.slot id ≠ .abandoned) ∧
    (y.traffic.pool.allocate = (.error .closed, y.traffic.pool) ∧
      ∀ t, ¬ y.traffic.Step .enter t) ∧
    ∀ id, id < y.traffic.pool.size →
      (y.traffic.pool.available.testBit id = true ↔
        ∀ q phase, y.traffic.caller q = some ⟨id, phase⟩ → phase.owns = false) := by
  obtain ⟨hy, hswept, hheld⟩ := Steps.swept hlater hx.ordered hswept
  have hclosed := hy.closed hswept
  refine ⟨fun q id phase hc hholds => ?_, hy.slot_ne_abandoned hswept, ⟨?_, ?_⟩,
    fun id hid => hy.available_iff hswept hid⟩
  · have hresult := hy.result hswept hc hholds
    refine ⟨hresult, ?_, hheld q id phase hc hholds⟩
    rcases hresult with ⟨result, hslot⟩ | hslot
    · rw [StreamPool.response, hslot]
      rfl
    · rw [StreamPool.response, hslot]
      rfl
  · rw [StreamPool.allocate, if_pos hclosed]
  · rintro t ⟨hopen⟩
    rw [hclosed] at hopen
    cases hopen

/-- One request is found unanswered while the pool is open, and abandoned when it is closed already;
one holds its id; one claims the abandoned id behind the sweep, and finds the pool closed. -/
theorem closing_misses_nobody_of_three :
    ∃ x y, Reachable 2 x ∧ x.IsSwept ∧ x.traffic.pool.slot 0 = .waiting ∧
      ReflTransGen Step x y ∧ y.traffic.caller 1 = some ⟨1, .held⟩ ∧
      (y.traffic.pool.response 1).1.isSome = true ∧
      y.traffic.pool.available.testBit 0 = true := by
  have hopening : (Traffic.new 2).Run
      [.enter, .claim 0 0, .arm 0, .recheck 0, .send 0, .noteSent 0,
        .enter, .claim 1 1, .arm 1, .recheck 1, .enter]
      ⟨⟨#[.waiting, .waiting], 0, false⟩, [⟨0, .sent⟩, ⟨1, .held⟩, ⟨0, .entering⟩], none⟩ :=
    .cons (.enter rfl) (.cons (.claim rfl rfl) (.cons (.arm rfl) (.cons (.recheck rfl)
      (.cons (.send rfl) (.cons (.noteSent rfl) (.cons (.enter rfl) (.cons (.claim rfl rfl)
        (.cons (.arm rfl) (.cons (.recheck rfl) (.cons (.enter rfl) .nil))))))))))
  have hsweeping : Traffic.Run
      ⟨⟨#[.abandoned, .waiting], 0, true⟩, [⟨0, .gone⟩, ⟨1, .held⟩, ⟨0, .entering⟩],
        some (.closed, 0)⟩
      [.sweep, .claim 2 0, .arm 2, .sweep]
      ⟨⟨#[.waiting, .completed (.error .closed)], 0, true⟩,
        [⟨0, .gone⟩, ⟨1, .held⟩, ⟨0, .armed⟩], some (.closed, 2)⟩ :=
    .cons (.sweep rfl (by decide)) (.cons (.claim rfl rfl) (.cons (.arm rfl)
      (.cons (.sweep rfl (by decide)) .nil)))
  have hleaving : Traffic.Run
      ⟨⟨#[.waiting, .completed (.error .closed)], 0, true⟩,
        [⟨0, .gone⟩, ⟨1, .held⟩, ⟨0, .armed⟩], some (.closed, 2)⟩
      [.recheck 2, .vacate 2, .release 2]
      ⟨⟨#[.free, .completed (.error .closed)], 1, true⟩,
        [⟨0, .gone⟩, ⟨1, .held⟩, ⟨0, .gone⟩], some (.closed, 2)⟩ :=
    .cons (.recheck rfl) (.cons (.vacate rfl rfl rfl) (.cons (.release rfl) .nil))
  obtain ⟨drops, hfree, hgiven⟩ : ∃ drops, (∀ q, drops q = none) ∧ Reachable 2
      ⟨⟨⟨#[.abandoned, .waiting], 0, true⟩, [⟨0, .gone⟩, ⟨1, .held⟩, ⟨0, .entering⟩],
        some (.closed, 0)⟩, drops⟩ := by
    have hsent : Reachable 2 _ := steps_of_run (fun _ => rfl) hopening
    have hlocked := hsent.tail (.lock (q := 0) rfl rfl (not_isLocked fun _ => rfl))
    have hlooked := hlocked.tail (.look (q := 0) rfl rfl)
    have hclosed := hlooked.tail (.move (m := .close .closed) rfl nofun nofun (.close .closed rfl))
    have hwritten := hclosed.tail (.write (q := 0) rfl rfl)
    refine ⟨_, fun q => ?_, hwritten⟩
    simp [LockedTraffic.setDrop, new, update_apply]
  have hswept := steps_of_run (x := ⟨_, drops⟩) hfree hsweeping
  have hlater := steps_of_run (x := ⟨_, drops⟩) hfree hleaving
  have hx : Reachable 2 _ := ReflTransGen.trans hgiven hswept
  obtain ⟨hresults, _⟩ := closing_misses_nobody hx ⟨.closed, rfl⟩ hlater
  have hbit : Nat.testBit 1 0 = true := by decide
  exact ⟨_, _, hx, ⟨.closed, rfl⟩, rfl, hlater, rfl, (hresults 1 1 .held rfl rfl).2.1, hbit⟩

end LockedTraffic

end CqlClient
