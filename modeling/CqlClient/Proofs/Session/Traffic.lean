import CqlClient.Proofs.Session.StreamPool

/-!
# Requests that share a stream pool

Any number of requests, the reader of the connection and whoever closes it use one pool at the same
time. `Traffic.Step` has every step that one of them takes while the others stand still; a run is
any sequence of such steps.

* `Traffic.Tidy`: an id is available, or abandoned, or in the hands of exactly one request;
* `Traffic.Step.sound`, `Traffic.Run.sound`: this is so of every id, after any step and any run.

`run_allocate`, `run_leave` and `run_close` say that the functions of `StreamPool` that take more
than one step are such runs.
-/

namespace CqlClient

namespace Traffic

/-- How far a request has come with its stream id. -/
inductive Phase where
  /-- It has found the pool open and has no id yet. -/
  | entering
  | claimed
  /-- Its id waits; the pool is still to be looked at again. -/
  | armed
  /-- The pool was closed meanwhile, and the id is to be given up. -/
  | refused
  | held
  /-- Its frame is with the writer, which is still to be noted. -/
  | handing
  | sent
  /-- Its slot is given up, and its id is to be released. -/
  | leaving
  | gone
  deriving DecidableEq

namespace Phase

/-- Whether the id is the request's own. -/
def owns : Phase → Bool
  | entering | gone => false
  | _ => true

/-- Whether the slot of the id is in use. -/
def waits : Phase → Bool
  | armed | refused | held | handing | sent => true
  | _ => false

/-- Whether the id has been given out, so that its result can be taken. -/
def holds : Phase → Bool
  | held | handing | sent => true
  | _ => false

/-- Whether the id can be given up: handing over a frame and noting it cannot be parted. -/
def mayLeave : Phase → Bool
  | refused | held | sent => true
  | _ => false

/-- Whether the other side may have got the request. -/
def isAsked : Phase → Bool
  | handing | sent | leaving | gone => true
  | _ => false

end Phase

structure Caller where
  id : Nat
  phase : Phase

end Traffic

structure Traffic where
  pool : StreamPool
  /-- Requests are known by their places here. -/
  callers : List Traffic.Caller
  /-- What closes the pool, and the id that it looks at next. -/
  closing : Option (CallFault × Nat)

namespace Traffic

inductive Move where
  | enter
  | turnAway (q : Nat)
  | claim (q id : Nat)
  | arm (q : Nat)
  | recheck (q : Nat)
  | send (q : Nat)
  | noteSent (q : Nat)
  | receive (e : Envelope)
  | take (q : Nat) (result : Except CallFault Envelope)
  | vacate (q : Nat)
  | release (q : Nat)
  | close (fault : CallFault)
  | sweep

def new (size : Nat) : Traffic := ⟨.new size, [], none⟩

def caller (s : Traffic) (q : Nat) : Option Caller := s.callers[q]?

/-- A step of a request that has its id by now. -/
def put (s : Traffic) (q : Nat) (c : Caller) (pool : StreamPool) : Traffic :=
  { s with callers := s.callers.set q c, pool }

/-- The steps of the requests, of the reader and of whoever closes the pool. -/
inductive Step (s : Traffic) : Move → Traffic → Prop
  | enter : s.pool.closed = false →
      Step s .enter { s with callers := s.callers ++ [⟨0, .entering⟩] }
  | turnAway {q id : Nat} : s.caller q = some ⟨id, .entering⟩ →
      Step s (.turnAway q) (s.put q ⟨id, .gone⟩ s.pool)
  | claim {q id i : Nat} : s.caller q = some ⟨i, .entering⟩ →
      s.pool.available.testBit id = true →
      Step s (.claim q id) (s.put q ⟨id, .claimed⟩ (s.pool.claim id))
  | arm {q id : Nat} : s.caller q = some ⟨id, .claimed⟩ →
      Step s (.arm q) (s.put q ⟨id, .armed⟩ (s.pool.arm id))
  | recheck {q id : Nat} : s.caller q = some ⟨id, .armed⟩ →
      Step s (.recheck q) (s.put q ⟨id, if s.pool.closed then .refused else .held⟩ s.pool)
  | send {q id : Nat} : s.caller q = some ⟨id, .held⟩ →
      Step s (.send q) (s.put q ⟨id, .handing⟩ s.pool)
  | noteSent {q id : Nat} : s.caller q = some ⟨id, .handing⟩ →
      Step s (.noteSent q) (s.put q ⟨id, .sent⟩ s.pool)
  | receive (e : Envelope) : Step s (.receive e) { s with pool := (s.pool.complete e).2 }
  | take {q id : Nat} {phase : Phase} {result : Except CallFault Envelope} {pool : StreamPool} :
      s.caller q = some ⟨id, phase⟩ → phase.holds = true →
      s.pool.response id = (some result, pool) →
      Step s (.take q result) { s with pool }
  | abandon {q id : Nat} {phase : Phase} {pool : StreamPool} :
      s.caller q = some ⟨id, phase⟩ → phase.mayLeave = true →
      s.pool.vacate id (phase = .sent) = (false, pool) →
      Step s (.vacate q) (s.put q ⟨id, .gone⟩ pool)
  | vacate {q id : Nat} {phase : Phase} {pool : StreamPool} :
      s.caller q = some ⟨id, phase⟩ → phase.mayLeave = true →
      s.pool.vacate id (phase = .sent) = (true, pool) →
      Step s (.vacate q) (s.put q ⟨id, .leaving⟩ pool)
  | release {q id : Nat} : s.caller q = some ⟨id, .leaving⟩ →
      Step s (.release q) (s.put q ⟨id, .gone⟩ (s.pool.release id))
  | close (fault : CallFault) : s.pool.closed = false →
      Step s (.close fault) { s with pool := s.pool.markClosed, closing := some (fault, 0) }
  | sweep {fault : CallFault} {id : Nat} : s.closing = some (fault, id) → id < s.pool.size →
      Step s .sweep { s with pool := s.pool.sweep fault id, closing := some (fault, id + 1) }

inductive Run : Traffic → List Move → Traffic → Prop
  | nil {s : Traffic} : Run s [] s
  | cons {s t u : Traffic} {m : Move} {ms : List Move} : Step s m t → Run t ms u → Run s (m :: ms) u

/-! ## Every id has its place -/

variable {s t : Traffic} {q q' id : Nat} {phase : Phase}

/-- The request that an id belongs to, if there is one, and its phase. -/
def OwnedBy (s : Traffic) (id : Nat) (owner : Option (Nat × Phase)) : Prop :=
  ∀ q phase, s.caller q = some ⟨id, phase⟩ ∧ phase.owns = true ↔ owner = some (q, phase)

/-- Whether somebody waits for the result of a slot, or has taken it and still has the id. -/
def inUse : Slot → Bool
  | .waiting | .completed _ | .consumed => true
  | .free | .abandoned => false

/-- Whether the slot of an id is as it has to be for its owner. -/
def Suits (slot : Slot) (phase : Phase) : Prop := inUse slot = phase.waits ∧ slot ≠ .abandoned

/-- An id without an owner is available or abandoned. -/
def Fits (available : Bool) (slot : Slot) : Option Phase → Prop
  | none => available = true ∧ slot = .free ∨ available = false ∧ slot = .abandoned
  | some phase => available = false ∧ Suits slot phase

def Tidy (s : Traffic) (id : Nat) : Prop :=
  ∃ owner, s.OwnedBy id owner ∧
    Fits (s.pool.available.testBit id) (s.pool.slot id) (owner.map Prod.snd)

structure Sound (s : Traffic) : Prop where
  small : s.pool.size ≤ maxStreams
  tidy : ∀ id, id < s.pool.size → s.Tidy id
  bound : ∀ id, s.pool.size ≤ id → s.pool.available.testBit id = false ∧ s.OwnedBy id none
  closing : ∀ fault id, s.closing = some (fault, id) → s.pool.closed = true

/-! ## Owners -/

theorem caller_put {c c' : Caller} {pool : StreamPool} (h : s.caller q = some c) :
    (s.put q c' pool).caller q' = if q' = q then some c' else s.caller q' := by
  obtain ⟨hlt, _⟩ := List.getElem?_eq_some_iff.mp h
  by_cases hq : q' = q
  · simp [caller, put, hq, hlt]
  · simp [caller, put, hq, List.getElem?_set_ne (Ne.symm hq)]

theorem caller_put_eq_some {c c' c'' : Caller} {pool : StreamPool} (h : s.caller q = some c)
    (h' : (s.put q c' pool).caller q' = some c'') :
    q' = q ∧ c'' = c' ∨ q' ≠ q ∧ s.caller q' = some c'' := by
  rw [caller_put h] at h'
  by_cases hq : q' = q
  · rw [if_pos hq] at h'
    cases h'
    exact .inl ⟨hq, rfl⟩
  · rw [if_neg hq] at h'
    exact .inr ⟨hq, h'⟩

theorem caller_enter {pool : StreamPool} {closing : Option (CallFault × Nat)} {c : Caller} :
    (Traffic.mk pool (s.callers ++ [c]) closing).caller q =
      if q = s.callers.length then some c else s.caller q := by
  unfold caller
  rw [List.getElem?_append]
  by_cases hlt : q < s.callers.length
  · simp [hlt, Nat.ne_of_lt hlt]
  · by_cases heq : q = s.callers.length
    · simp [heq]
    · have hpast : [c].length ≤ q - s.callers.length := by
        rw [List.length_singleton]
        omega
      simp [hlt, heq, List.getElem?_eq_none hpast]

theorem OwnedBy.unique {owner : Option (Nat × Phase)} (h : s.OwnedBy id owner)
    (hc : s.caller q = some ⟨id, phase⟩) (ho : phase.owns = true) : owner = some (q, phase) :=
  (h q phase).mp ⟨hc, ho⟩

/-- A step of a request that does not concern an id leaves its owner. -/
theorem OwnedBy.put_ne {owner : Option (Nat × Phase)} {c c' : Caller} {pool : StreamPool}
    (h : s.OwnedBy id owner) (hc : s.caller q = some c)
    (hold : c.phase.owns = true → c.id ≠ id) (hnew : c'.phase.owns = true → c'.id ≠ id) :
    (s.put q c' pool).OwnedBy id owner := by
  intro q' phase'
  rw [caller_put hc, ← h q' phase']
  by_cases hq : q' = q
  · subst hq
    rw [if_pos rfl, hc]
    constructor
    · rintro ⟨heq, ho⟩
      cases heq
      exact absurd rfl (hnew ho)
    · rintro ⟨heq, ho⟩
      cases heq
      exact absurd rfl (hold ho)
  · rw [if_neg hq]

/-- A step of the owner, or of a request that becomes it. -/
theorem OwnedBy.put_self {owner : Option (Nat × Phase)} {c : Caller} {pool : StreamPool}
    {phase' : Phase} (h : s.OwnedBy id owner) (hc : s.caller q = some c)
    (howner : ∀ q' phase, owner = some (q', phase) → q' = q) :
    (s.put q ⟨id, phase'⟩ pool).OwnedBy id
      (if phase'.owns then some (q, phase') else none) := by
  intro q' phase''
  rw [caller_put hc]
  by_cases hq : q' = q
  · subst hq
    rw [if_pos rfl]
    constructor
    · rintro ⟨heq, ho⟩
      cases heq
      rw [if_pos ho]
    · intro heq
      split at heq
      · cases heq
        exact ⟨rfl, ‹_›⟩
      · cases heq
  · rw [if_neg hq, h q' phase'']
    constructor
    · intro heq
      exact absurd (howner _ _ heq) hq
    · intro heq
      split at heq
      · cases heq
        exact absurd rfl hq
      · cases heq

/-! ## Steps that concern one id -/

theorem waits_of_holds (h : phase.holds = true) : phase.waits = true := by
  cases phase <;> first | rfl | cases h

theorem owns_of_waits (h : phase.waits = true) : phase.owns = true := by
  cases phase <;> first | rfl | cases h

theorem owns_of_mayLeave (h : phase.mayLeave = true) : phase.owns = true := by
  cases phase <;> first | rfl | cases h

theorem eq_free_of_suits {slot : Slot} (h : Suits slot phase) (hwaits : phase.waits = false) :
    slot = .free := by
  obtain ⟨hinUse, hne⟩ := h
  rw [hwaits] at hinUse
  cases slot with
  | free => rfl
  | abandoned => exact absurd rfl hne
  | waiting => cases hinUse
  | completed result => cases hinUse
  | consumed => cases hinUse

theorem Tidy.free (hown : t.OwnedBy id none) (hbit : t.pool.available.testBit id = true)
    (hslot : t.pool.slot id = .free) : t.Tidy id :=
  ⟨none, hown, .inl ⟨hbit, hslot⟩⟩

theorem Tidy.abandoned (hown : t.OwnedBy id none) (hbit : t.pool.available.testBit id = false)
    (hslot : t.pool.slot id = .abandoned) : t.Tidy id :=
  ⟨none, hown, .inr ⟨hbit, hslot⟩⟩

theorem Tidy.owned (hown : t.OwnedBy id (some (q, phase)))
    (hbit : t.pool.available.testBit id = false) (hslot : Suits (t.pool.slot id) phase) :
    t.Tidy id :=
  ⟨some (q, phase), hown, hbit, hslot⟩

namespace Sound

theorem lt_size_of_available (h : s.Sound) (hbit : s.pool.available.testBit id = true) :
    id < s.pool.size :=
  Nat.lt_of_not_le fun hle => by simp [(h.bound id hle).1] at hbit

theorem lt_size (h : s.Sound) (hc : s.caller q = some ⟨id, phase⟩) (ho : phase.owns = true) :
    id < s.pool.size :=
  Nat.lt_of_not_le fun hle => by cases (h.bound id hle).2.unique hc ho

/-- All that is known of the id of a request. -/
theorem owner (h : s.Sound) (hc : s.caller q = some ⟨id, phase⟩) (ho : phase.owns = true) :
    s.OwnedBy id (some (q, phase)) ∧ s.pool.available.testBit id = false ∧
      Suits (s.pool.slot id) phase := by
  obtain ⟨owner, hown, hfits⟩ := h.tidy id (h.lt_size hc ho)
  obtain rfl := hown.unique hc ho
  exact ⟨hown, hfits⟩

/-- Two requests never have one id. -/
theorem alone (h : s.Sound) {phase' : Phase} (hc : s.caller q = some ⟨id, phase⟩)
    (ho : phase.owns = true) (hc' : s.caller q' = some ⟨id, phase'⟩) (ho' : phase'.owns = true) :
    q' = q := by
  cases (h.owner hc ho).1.unique hc' ho'
  rfl

/-- An id that is available is nobody's, and its slot is free. -/
theorem available (h : s.Sound) (hbit : s.pool.available.testBit id = true) :
    s.OwnedBy id none ∧ s.pool.slot id = .free := by
  obtain ⟨owner, hown, hfits⟩ := h.tidy id (h.lt_size_of_available hbit)
  cases owner with
  | none =>
    rcases hfits with ⟨_, hslot⟩ | ⟨hno, _⟩
    · exact ⟨hown, hslot⟩
    · rw [hbit] at hno
      cases hno
  | some owner =>
    rw [hbit] at hfits
    cases hfits.1

/-- An abandoned id is nobody's, and not available. -/
theorem abandoned (h : s.Sound) (hslot : s.pool.slot id = .abandoned) :
    s.OwnedBy id none ∧ s.pool.available.testBit id = false := by
  obtain ⟨owner, hown, hfits⟩ :=
    h.tidy id (StreamPool.lt_size_of_slot hslot nofun)
  rw [hslot] at hfits
  cases owner with
  | none =>
    rcases hfits with ⟨_, hfree⟩ | ⟨hno, _⟩
    · cases hfree
    · exact ⟨hown, hno⟩
  | some owner => exact absurd rfl hfits.2.2

/-- A step that concerns one id only has to leave that one in its place. -/
theorem step (h : s.Sound) (hid : id < s.pool.size) (hpool : s.pool.AgreesOff id t.pool)
    (hown : ∀ i owner, i ≠ id → s.OwnedBy i owner → t.OwnedBy i owner)
    (hclosing : ∀ fault i, t.closing = some (fault, i) → t.pool.closed = true)
    (hself : t.Tidy id) : t.Sound where
  small := by
    rw [hpool.size]
    exact h.small
  tidy i hi := by
    by_cases heq : i = id
    · exact heq ▸ hself
    · obtain ⟨owner, howner, hfits⟩ := h.tidy i (hpool.size ▸ hi)
      refine ⟨owner, hown i owner heq howner, ?_⟩
      rw [hpool.slot i heq, hpool.bit i heq]
      exact hfits
  bound i hi := by
    have hle : s.pool.size ≤ i := hpool.size ▸ hi
    have hne : i ≠ id := by omega
    rw [hpool.bit i hne]
    exact ⟨(h.bound i hle).1, hown i none hne (h.bound i hle).2⟩
  closing := hclosing

/-- A step of a request that has no id. -/
theorem sameOwners (h : s.Sound) (hpool : t.pool = s.pool) (hclosing : t.closing = s.closing)
    (hown : ∀ i owner, s.OwnedBy i owner → t.OwnedBy i owner) : t.Sound where
  small := hpool ▸ h.small
  tidy i hi := by
    rw [hpool] at hi
    obtain ⟨owner, howner, hfits⟩ := h.tidy i hi
    exact ⟨owner, hown i owner howner, hpool ▸ hfits⟩
  bound i hi := by
    rw [hpool] at hi ⊢
    exact ⟨(h.bound i hi).1, hown i none (h.bound i hi).2⟩
  closing fault i heq := by
    rw [hclosing] at heq
    rw [hpool]
    exact h.closing fault i heq

/-- A step of the owner of an id. -/
theorem ownerStep {phase' : Phase} {pool : StreamPool} (h : s.Sound)
    (hc : s.caller q = some ⟨id, phase⟩) (ho : phase.owns = true)
    (hpool : s.pool.AgreesOff id pool)
    (hself : (s.put q ⟨id, phase'⟩ pool).OwnedBy id
        (if phase'.owns then some (q, phase') else none) →
      (s.put q ⟨id, phase'⟩ pool).Tidy id) : (s.put q ⟨id, phase'⟩ pool).Sound := by
  refine h.step (h.lt_size hc ho) hpool ?others ?closing ?self
  case others =>
    intro i owner hne hown
    exact hown.put_ne hc (fun _ => Ne.symm hne) (fun _ => Ne.symm hne)
  case closing =>
    intro fault i hclosing
    exact hpool.closed.trans (h.closing fault i hclosing)
  case self =>
    refine hself ((h.owner hc ho).1.put_self hc ?_)
    intro q' phase heq
    cases heq
    rfl

/-- A step of the owner that leaves the pool as it is. -/
theorem ownerMoves {phase' : Phase} (h : s.Sound) (hc : s.caller q = some ⟨id, phase⟩)
    (ho : phase.owns = true) (ho' : phase'.owns = true) (hwaits : phase'.waits = phase.waits) :
    (s.put q ⟨id, phase'⟩ s.pool).Sound := by
  obtain ⟨_, hbit, hsuits⟩ := h.owner hc ho
  refine h.ownerStep hc ho (.refl _ _) fun hown => ?_
  rw [if_pos ho'] at hown
  exact Tidy.owned hown hbit ⟨hsuits.1.trans hwaits.symm, hsuits.2⟩

/-- A step of the reader, or of whoever closes the pool, that leaves all ids to their owners. -/
theorem poolStep {pool : StreamPool} {closing : Option (CallFault × Nat)} (h : s.Sound)
    (hid : id < s.pool.size) (hpool : s.pool.AgreesOff id pool)
    (hclosing : ∀ fault i, closing = some (fault, i) → pool.closed = true)
    (hfits : ∀ owner, Fits (s.pool.available.testBit id) (s.pool.slot id) owner →
      Fits (pool.available.testBit id) (pool.slot id) owner) :
    (Traffic.mk pool s.callers closing).Sound := by
  refine h.step hid hpool (fun i owner _ hown => hown) hclosing ?_
  obtain ⟨owner, hown, hold⟩ := h.tidy id hid
  exact ⟨owner, hown, hfits _ hold⟩

/-- A slot that is in use stays so, whoever the id belongs to. -/
theorem fill {slot : Slot} {closing : Option (CallFault × Nat)} (h : s.Sound)
    (hold : inUse (s.pool.slot id) = true) (hnew : inUse slot = true)
    (hclosing : ∀ fault i, closing = some (fault, i) → s.pool.closed = true) :
    (Traffic.mk (s.pool.setSlot id slot) s.callers closing).Sound := by
  have hid : id < s.pool.size :=
    StreamPool.lt_size_of_slot rfl fun heq => by rw [heq] at hold; cases hold
  refine h.poolStep hid (.setSlot _ _ _) hclosing fun owner hfits => ?_
  rw [StreamPool.slot_setSlot_self _ hid]
  cases owner with
  | none =>
    rcases hfits with ⟨_, hs⟩ | ⟨_, hs⟩
    · rw [hs] at hold
      cases hold
    · rw [hs] at hold
      cases hold
  | some phase =>
    refine ⟨hfits.1, hnew.trans (hold.symm.trans hfits.2.1), ?_⟩
    rintro rfl
    cases hnew

/-- An abandoned id is made available again. -/
theorem reclaim {closing : Option (CallFault × Nat)} (h : s.Sound)
    (hslot : s.pool.slot id = .abandoned)
    (hclosing : ∀ fault i, closing = some (fault, i) → s.pool.closed = true) :
    (Traffic.mk ((s.pool.setSlot id .free).release id) s.callers closing).Sound := by
  have hid : id < s.pool.size :=
    StreamPool.lt_size_of_slot hslot nofun
  refine h.poolStep hid (StreamPool.AgreesOff.setSlot _ _ _).release hclosing fun owner hfits => ?_
  cases owner with
  | none => exact .inl ⟨by simp [StreamPool.testBit_release], by simp [hid]⟩
  | some phase => exact absurd hslot hfits.2.2

theorem complete (h : s.Sound) (e : Envelope) :
    ({ s with pool := (s.pool.complete e).2 } : Traffic).Sound := by
  rcases s.pool.complete_cases e with ⟨hp, _⟩ | ⟨hslot, hp⟩ | ⟨⟨result, hslot⟩, hp⟩ | ⟨hslot, hp⟩
  · rw [hp]
    exact h
  · rw [hp]
    exact h.fill (by rw [hslot]; rfl) rfl h.closing
  · rw [hp]
    exact h.fill (by rw [hslot]; rfl) rfl h.closing
  · rw [hp]
    exact h.reclaim hslot h.closing

theorem sweep {fault : CallFault} (h : s.Sound) (hclosing : s.closing = some (fault, id)) :
    ({ s with
      pool := s.pool.sweep fault id
      closing := some (fault, id + 1) } : Traffic).Sound := by
  have hclosed : ∀ fault' i, some (fault, id + 1) = some (fault', i) → s.pool.closed = true :=
    fun _ _ _ => h.closing fault id hclosing
  rcases s.pool.sweep_cases id fault with ⟨hslot, hp⟩ | ⟨hslot, hp⟩ | ⟨_, _, hp⟩
  · rw [hp]
    exact h.fill (by rw [hslot]; rfl) rfl hclosed
  · rw [hp]
    exact h.reclaim hslot hclosed
  · rw [hp]
    exact ⟨h.small, h.tidy, h.bound, hclosed⟩

theorem take {result : Except CallFault Envelope} {pool : StreamPool} (h : s.Sound)
    (hp : s.pool.response id = (some result, pool)) : ({ s with pool } : Traffic).Sound := by
  rcases StreamPool.response_eq_some hp with ⟨hslot, rfl⟩ | ⟨_, rfl⟩
  · exact h.fill (by rw [hslot]; rfl) rfl h.closing
  · exact h

end Sound

/-! ## Runs -/

theorem size_new (size : Nat) : (Traffic.new size).pool.size = min (max size 1) maxStreams :=
  Array.size_replicate

theorem sound_new (size : Nat) : (Traffic.new size).Sound where
  small := by
    rw [size_new]
    exact Nat.min_le_right _ _
  tidy id hid := by
    rw [size_new] at hid
    refine Tidy.free ?_ ?_ ?_
    · intro q phase
      simp [new, caller]
    · simp [new, StreamPool.new, Nat.testBit_two_pow_sub_one, hid]
    · simp [new, StreamPool.new, StreamPool.slot, Array.getD_eq_getD_getElem?, hid]
  bound id hid := by
    rw [size_new] at hid
    refine ⟨?_, ?_⟩
    · simp [new, StreamPool.new, Nat.testBit_two_pow_sub_one]
      omega
    · intro q phase
      simp [new, caller]
  closing fault id h := by cases h

/-- Every id stays in its place, whatever step is taken. -/
theorem Step.sound {m : Move} (hstep : Step s m t) (h : s.Sound) : t.Sound := by
  cases hstep with
  | enter hopen =>
    have hown : ∀ i owner, s.OwnedBy i owner →
        (Traffic.mk s.pool (s.callers ++ [⟨0, .entering⟩]) s.closing).OwnedBy i owner := by
      intro i owner hown q phase
      rw [caller_enter, ← hown q phase]
      by_cases hq : q = s.callers.length
      · subst hq
        rw [if_pos rfl, caller, List.getElem?_eq_none (Nat.le_refl _)]
        constructor
        · rintro ⟨heq, ho⟩
          cases heq
          cases ho
        · rintro ⟨heq, _⟩
          cases heq
      · rw [if_neg hq]
    exact h.sameOwners rfl rfl hown
  | @turnAway q id hc =>
    have hown : ∀ i owner, s.OwnedBy i owner → (s.put q ⟨id, .gone⟩ s.pool).OwnedBy i owner :=
      fun i owner hown => hown.put_ne hc (fun ho => by cases ho) (fun ho => by cases ho)
    exact h.sameOwners rfl rfl hown
  | @claim q id i hc hbit =>
    obtain ⟨hnobody, hslot⟩ := h.available hbit
    refine h.step (h.lt_size_of_available hbit) (.claim hbit) ?others h.closing ?self
    case others =>
      intro j owner hne hown
      exact hown.put_ne hc (fun ho => by cases ho) (fun _ => Ne.symm hne)
    case self =>
      have hown : (s.put q ⟨id, .claimed⟩ (s.pool.claim id)).OwnedBy id (some (q, .claimed)) :=
        hnobody.put_self hc fun _ _ heq => by cases heq
      refine Tidy.owned hown ?_ ?_
      · show (s.pool.claim id).available.testBit id = false
        simp [StreamPool.testBit_claim id hbit]
      · show Suits (s.pool.slot id) .claimed
        rw [hslot]
        exact ⟨rfl, fun heq => by cases heq⟩
  | @arm q id hc =>
    obtain ⟨_, hbit, _⟩ := h.owner hc rfl
    refine h.ownerStep hc rfl (.setSlot _ _ _) fun hown => Tidy.owned hown hbit ?_
    show Suits ((s.pool.setSlot id .waiting).slot id) .armed
    rw [StreamPool.slot_setSlot_self _ (h.lt_size hc rfl)]
    exact ⟨rfl, fun heq => by cases heq⟩
  | recheck hc =>
    split
    · exact h.ownerMoves hc rfl rfl rfl
    · exact h.ownerMoves hc rfl rfl rfl
  | send hc => exact h.ownerMoves hc rfl rfl rfl
  | noteSent hc => exact h.ownerMoves hc rfl rfl rfl
  | receive e => exact h.complete e
  | take hc hholds hp => exact h.take hp
  | @abandon q id phase pool hc hmay hp =>
    have ho := owns_of_mayLeave hmay
    have hagrees := StreamPool.AgreesOff.vacate s.pool id (phase = .sent)
    rcases s.pool.vacate_cases id (phase = .sent) with ⟨_, _, _, hv⟩ | ⟨_, hv⟩
    · rw [hv] at hp hagrees
      cases hp
      refine h.ownerStep hc ho hagrees fun hown => Tidy.abandoned hown (h.owner hc ho).2.1 ?_
      exact StreamPool.slot_setSlot_self _ (h.lt_size hc ho)
    · rw [hv] at hp
      cases hp
  | @vacate q id phase pool hc hmay hp =>
    have ho := owns_of_mayLeave hmay
    have hagrees := StreamPool.AgreesOff.vacate s.pool id (phase = .sent)
    rcases s.pool.vacate_cases id (phase = .sent) with ⟨_, _, _, hv⟩ | ⟨_, hv⟩
    · rw [hv] at hp
      cases hp
    · rw [hv] at hp hagrees
      cases hp
      refine h.ownerStep hc ho hagrees fun hown => Tidy.owned hown (h.owner hc ho).2.1 ?_
      show Suits ((s.pool.setSlot id .free).slot id) .leaving
      rw [StreamPool.slot_setSlot_self _ (h.lt_size hc ho)]
      exact ⟨rfl, fun heq => by cases heq⟩
  | @release q id hc =>
    have hslot := eq_free_of_suits (h.owner hc rfl).2.2 rfl
    refine h.ownerStep hc rfl (StreamPool.AgreesOff.refl _ _).release fun hown =>
      Tidy.free hown ?_ hslot
    show (s.pool.release id).available.testBit id = true
    simp [StreamPool.testBit_release]
  | close fault hopen => exact ⟨h.small, h.tidy, h.bound, fun _ _ _ => rfl⟩
  | sweep hclosing hid => exact h.sweep hclosing

theorem Run.sound {ms : List Move} (hrun : Run s ms t) (h : s.Sound) : t.Sound := by
  induction hrun with
  | nil => exact h
  | cons hstep _ ih => exact ih (hstep.sound h)

/-! ## Functions that take several steps -/

theorem caller_length {pool : StreamPool} {callers : List Caller}
    {closing : Option (CallFault × Nat)} {c : Caller} :
    (Traffic.mk pool (callers ++ [c]) closing).caller callers.length = some c := by
  simp [caller]

theorem put_length {pool pool' : StreamPool} {callers : List Caller}
    {closing : Option (CallFault × Nat)} {c c' : Caller} :
    (Traffic.mk pool (callers ++ [c]) closing).put callers.length c' pool' =
      ⟨pool', callers ++ [c'], closing⟩ := by
  simp [put]

theorem run_allocate {pool : StreamPool} (h : s.pool.allocate = (.ok id, pool)) :
    Run s [.enter, .claim s.callers.length id, .arm s.callers.length, .recheck s.callers.length]
      ⟨pool, s.callers ++ [⟨id, .held⟩], s.closing⟩ := by
  unfold StreamPool.allocate at h
  split at h
  · cases h
  · rename_i hopen
    split at h
    · cases h
    · rename_i id' claimed hclaim
      obtain ⟨hbit, rfl⟩ := s.pool.claim?_eq_some _ hclaim
      have hclosed : ((s.pool.claim id').arm id').closed = s.pool.closed := rfl
      simp only [hclosed, hopen, Bool.false_eq_true, if_false] at h
      cases h
      refine .cons (.enter (by simpa using hopen)) (.cons (.claim caller_length hbit) ?_)
      rw [put_length]
      refine .cons (.arm caller_length) ?_
      rw [put_length]
      refine .cons (.recheck caller_length) ?_
      rw [put_length, if_neg (by exact hopen)]
      exact .nil

theorem run_leave (hc : s.caller q = some ⟨id, phase⟩) (hmay : phase.mayLeave = true) :
    ∃ ms, Run s ms (s.put q ⟨id, .gone⟩ (s.pool.leave id (phase = .sent))) := by
  unfold StreamPool.leave
  split
  · rename_i pool hp
    have hleaving : (s.put q ⟨id, .leaving⟩ pool).caller q = some ⟨id, .leaving⟩ := by
      rw [caller_put hc, if_pos rfl]
    have hput : (s.put q ⟨id, .leaving⟩ pool).put q ⟨id, .gone⟩ (pool.release id) =
        s.put q ⟨id, .gone⟩ (pool.release id) := by
      simp [put]
    refine ⟨[.vacate q, .release q], .cons (.vacate hc hmay hp) (.cons (.release hleaving) ?_)⟩
    show Run ((s.put q ⟨id, .leaving⟩ pool).put q ⟨id, .gone⟩ (pool.release id)) [] _
    rw [hput]
    exact .nil
  · rename_i pool hp
    exact ⟨[.vacate q], .cons (.abandon hc hmay hp) .nil⟩

theorem run_sweep {fault : CallFault} (n : Nat) (hid : id + n ≤ s.pool.size)
    (hclosing : s.closing = some (fault, id)) :
    Run s (.replicate n .sweep)
      ⟨(List.range' id n).foldl (StreamPool.sweep fault) s.pool, s.callers,
        some (fault, id + n)⟩ := by
  induction n generalizing s id with
  | zero =>
    rw [Nat.add_zero, ← hclosing]
    exact .nil
  | succ n ih =>
    have hsize := (StreamPool.AgreesOff.sweep s.pool id fault).size
    have hrest := ih (s := ⟨s.pool.sweep fault id, s.callers, some (fault, id + 1)⟩)
      (by rw [hsize]; omega) rfl
    rw [Nat.add_right_comm, Nat.add_assoc] at hrest
    exact .cons (.sweep hclosing (by omega)) hrest

theorem run_close (fault : CallFault) (hopen : s.pool.closed = false) :
    Run s (.close fault :: .replicate s.pool.size .sweep)
      ⟨s.pool.close fault, s.callers, some (fault, s.pool.size)⟩ := by
  refine .cons (.close fault hopen) ?_
  have hfirst : 0 + s.pool.size ≤ s.pool.markClosed.size := Nat.le_of_eq (Nat.zero_add _)
  have hrun := run_sweep (s := ⟨s.pool.markClosed, s.callers, some (fault, 0)⟩) _ hfirst rfl
  rw [Nat.zero_add, ← List.range_eq_range'] at hrun
  rw [StreamPool.close, if_neg (by simp [hopen])]
  exact hrun

end Traffic

end CqlClient
