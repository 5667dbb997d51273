import CqlClient.Proofs.Session.Traffic
import Mathlib.Logic.Function.Basic

/-!
# Requests and the other side

The requests of `Traffic` meet another side that answers each request that it gets at most once, on
the stream of the request, whenever it likes; answers come in any order and after any delay. What is
noted beside the traffic is where each answer is, which request's answer came last on each id, and
which answers were taken.

* `Exchange.Orderly`: while the answer of a request is due, its id waits for it, or is abandoned, or
  the pool is closed and nobody else can take a result there;
* `Exchange.Faithful`: all ids are orderly, and what was taken was taken by the right request;
* `Faithful.ownerStep`, `Faithful.poolStep`: steps that concern one id only.
-/

namespace CqlClient

/-- Where the answer of a request is. -/
inductive Letter where
  | unasked
  | asked
  /-- The answer is on its way. -/
  | answered (e : Envelope)
  | arrived (e : Envelope)

/-- Whether the answer may still come. -/
def Letter.isDue : Letter → Bool
  | asked | answered _ => true
  | unasked | arrived _ => false

/-- A request that has taken an answer, and the request whose answer it was. -/
structure Taken where
  request : Nat
  source : Option Nat
  envelope : Envelope

structure Exchange where
  traffic : Traffic
  letters : Nat → Letter
  /-- The request whose answer came last on an id. -/
  origin : Nat → Option Nat
  taken : List Taken

/-- Moves that the other side has no part in, and that take no answer. -/
def Traffic.Move.isQuiet : Traffic.Move → Bool
  | send _ | receive _ | take _ (.ok _) => false
  | _ => true

namespace Exchange

open Function Traffic

def new (size : Nat) : Exchange := ⟨.new size, fun _ => .unasked, fun _ => none, []⟩

inductive Step (x : Exchange) : Exchange → Prop
  | quiet {m : Move} {t : Traffic} : m.isQuiet = true → x.traffic.Step m t →
      Step x { x with traffic := t }
  | send {q : Nat} {t : Traffic} : x.traffic.Step (.send q) t →
      Step x { x with traffic := t, letters := update x.letters q .asked }
  | answer {q id : Nat} {phase : Phase} {e : Envelope} : x.letters q = .asked →
      x.traffic.caller q = some ⟨id, phase⟩ → e.stream = Int16.ofNat id →
      Step x { x with letters := update x.letters q (.answered e) }
  | deliver {q : Nat} {e : Envelope} {t : Traffic} : x.letters q = .answered e →
      x.traffic.Step (.receive e) t →
      Step x { x with
        traffic := t
        letters := update x.letters q (.arrived e)
        origin := update x.origin e.stream.toInt.toNat (some q) }
  | take {q id : Nat} {phase : Phase} {e : Envelope} {t : Traffic} :
      x.traffic.caller q = some ⟨id, phase⟩ → x.traffic.Step (.take q (.ok e)) t →
      Step x { x with traffic := t, taken := x.taken ++ [⟨q, x.origin id, e⟩] }

/-- The states that a pool and its requests come to. -/
inductive Reachable (size : Nat) : Exchange → Prop
  | new : Reachable size (.new size)
  | step {x y : Exchange} : Reachable size x → Step x y → Reachable size y

variable {x y : Exchange} {q q' id : Nat} {phase phase' : Phase}

/-- Why an answer that is due on an id reaches nobody but its request. -/
def Awaited (x : Exchange) (q id : Nat) (phase : Phase) : Prop :=
  phase.holds = true ∧ x.traffic.pool.slot id = .waiting ∨
  x.traffic.pool.slot id = .abandoned ∨
  x.traffic.pool.closed = true ∧ ∀ q' phase', x.traffic.caller q' = some ⟨id, phase'⟩ →
    phase'.holds = true → q' = q

/-- What is known of an id, of the requests that have or had it and of their answers. -/
structure Orderly (x : Exchange) (id : Nat) : Prop where
  due : ∀ q phase, x.traffic.caller q = some ⟨id, phase⟩ → (x.letters q).isDue = true →
    x.Awaited q id phase
  single : ∀ q q' phase phase', x.traffic.caller q = some ⟨id, phase⟩ →
    x.traffic.caller q' = some ⟨id, phase'⟩ → (x.letters q).isDue = true →
    (x.letters q').isDue = true → q' = q
  unasked : ∀ q phase, x.traffic.caller q = some ⟨id, phase⟩ → phase.waits = true →
    x.letters q = .unasked →
    x.traffic.pool.slot id = .waiting ∨ x.traffic.pool.closed = true
  result : ∀ q phase e, x.traffic.caller q = some ⟨id, phase⟩ → phase.holds = true →
    x.traffic.pool.slot id = .completed (.ok e) →
    x.origin id = some q ∧ x.letters q = .arrived e
  spent : ∀ q phase r, x.traffic.caller q = some ⟨id, phase⟩ → phase.holds = true →
    r ∈ x.taken → r.request = q → x.traffic.pool.slot id = .consumed

structure Faithful (x : Exchange) : Prop where
  sound : x.traffic.Sound
  asked : ∀ q, x.letters q ≠ .unasked → ∃ id phase, x.traffic.caller q = some ⟨id, phase⟩ ∧
    phase.isAsked = true ∧ id < x.traffic.pool.size
  stream : ∀ q id phase e, x.letters q = .answered e → x.traffic.caller q = some ⟨id, phase⟩ →
    e.stream = Int16.ofNat id
  orderly : ∀ id, x.Orderly id
  taken : ∀ r, r ∈ x.taken →
    r.source = some r.request ∧ x.letters r.request = .arrived r.envelope
  once : (x.taken.map Taken.source).Nodup

/-! ## Ids that a step does not concern -/

/-- The requests that matter to an id are those that mattered to it before. -/
def Keeps (x y : Exchange) (id : Nat) : Prop :=
  ∀ q phase, y.traffic.caller q = some ⟨id, phase⟩ →
    phase.waits = true ∨ (y.letters q).isDue = true →
    ∃ phase', x.traffic.caller q = some ⟨id, phase'⟩ ∧ phase'.holds = phase.holds ∧
      (phase.waits = true → phase'.waits = true) ∧
      ((y.letters q).isDue = true → (x.letters q).isDue = true) ∧
      (y.letters q = .unasked → x.letters q = .unasked) ∧
      ∀ e, x.letters q = .arrived e → y.letters q = .arrived e

theorem Orderly.keep (h : x.Orderly id) (hkeeps : Keeps x y id)
    (hslot : y.traffic.pool.slot id = x.traffic.pool.slot id)
    (hclosed : x.traffic.pool.closed = true → y.traffic.pool.closed = true)
    (horigin : y.origin id = x.origin id)
    (htaken : ∀ r, r ∈ y.taken → r ∈ x.taken ∨
      ∀ phase, y.traffic.caller r.request ≠ some ⟨id, phase⟩) : y.Orderly id where
  due q phase hc hdue := by
    obtain ⟨old, hold, hholds, _, hdue', _, _⟩ := hkeeps q phase hc (.inr hdue)
    rcases h.due q old hold (hdue' hdue) with ⟨hh, hs⟩ | hs | ⟨hcl, hall⟩
    · exact .inl ⟨hholds ▸ hh, hslot.trans hs⟩
    · exact .inr (.inl (hslot.trans hs))
    · refine .inr (.inr ⟨hclosed hcl, fun q' phase' hc' hh' => ?_⟩)
      obtain ⟨old', hold', hholds', _⟩ := hkeeps q' phase' hc' (.inl (waits_of_holds hh'))
      exact hall q' old' hold' (hholds'.trans hh')
  single q q' phase phase' hc hc' hdue hdue' := by
    obtain ⟨old, hold, _, _, hdue₀, _, _⟩ := hkeeps q phase hc (.inr hdue)
    obtain ⟨old', hold', _, _, hdue₀', _, _⟩ := hkeeps q' phase' hc' (.inr hdue')
    exact h.single q q' old old' hold hold' (hdue₀ hdue) (hdue₀' hdue')
  unasked q phase hc hwaits hun := by
    obtain ⟨old, hold, _, hwaits', _, hun', _⟩ := hkeeps q phase hc (.inl hwaits)
    rcases h.unasked q old hold (hwaits' hwaits) (hun' hun) with hs | hcl
    · exact .inl (hslot.trans hs)
    · exact .inr (hclosed hcl)
  result q phase e hc hholds hs := by
    obtain ⟨old, hold, hholds', _, _, _, harr⟩ := hkeeps q phase hc (.inl (waits_of_holds hholds))
    obtain ⟨ho, hl⟩ := h.result q old e hold (hholds'.trans hholds) (hslot.symm.trans hs)
    exact ⟨horigin.trans ho, harr e hl⟩
  spent q phase r hc hholds hr hreq := by
    obtain ⟨old, hold, hholds', _⟩ := hkeeps q phase hc (.inl (waits_of_holds hholds))
    rcases htaken r hr with hr | hne
    · exact hslot.trans (h.spent q old r hold (hholds'.trans hholds) hr hreq)
    · exact absurd (hreq ▸ hc) (hne phase)

theorem Keeps.refl (x : Exchange) (id : Nat) : Keeps x x id :=
  fun _ phase hc _ => ⟨phase, hc, rfl, fun h => h, fun h => h, fun h => h, fun _ h => h⟩

/-- A step of a request keeps what is known of the other ids. -/
theorem keeps_put {c c' : Caller} {pool : StreamPool} (hc : x.traffic.caller q = some c)
    (hnew : c'.id = id → c'.phase.waits = true ∨ (x.letters q).isDue = true →
      c.id = id ∧ c.phase.holds = c'.phase.holds ∧
        (c'.phase.waits = true → c.phase.waits = true)) :
    Keeps x { x with traffic := x.traffic.put q c' pool } id := by
  intro q' phase hc' hmatters
  rcases caller_put_eq_some hc hc' with ⟨rfl, rfl⟩ | ⟨_, hold⟩
  · obtain ⟨rfl, hholds, hwaits⟩ := hnew rfl hmatters
    exact ⟨c.phase, hc, hholds, hwaits, fun h => h, fun h => h, fun _ h => h⟩
  · exact Keeps.refl x id q' phase hold hmatters

/-- A step of a request that has another id. -/
theorem keeps_of_ne (hcaller : ∀ q', q' ≠ q → y.traffic.caller q' = x.traffic.caller q')
    (hletters : ∀ q', q' ≠ q → y.letters q' = x.letters q')
    (hne : ∀ phase, y.traffic.caller q ≠ some ⟨id, phase⟩) : Keeps x y id := by
  intro q' phase hc _
  have hq : q' ≠ q := fun heq => hne phase (heq ▸ hc)
  refine ⟨phase, hcaller q' hq ▸ hc, rfl, fun h => h, ?_⟩
  rw [hletters q' hq]
  exact ⟨fun h => h, fun h => h, fun _ h => h⟩

/-! ## The id of a step -/

/-- If one request at most has the id, only the answers that are due need a closer look. -/
theorem orderly_of_owner
    (hown : ∀ q' phase'', y.traffic.caller q' = some ⟨id, phase''⟩ → phase''.waits = true →
      q' = q ∧ phase'' = phase)
    (hdue : ∀ q' phase'', y.traffic.caller q' = some ⟨id, phase''⟩ →
      (y.letters q').isDue = true → y.Awaited q' id phase'')
    (hsingle : ∀ q₁ q₂ phase₁ phase₂, y.traffic.caller q₁ = some ⟨id, phase₁⟩ →
      y.traffic.caller q₂ = some ⟨id, phase₂⟩ → (y.letters q₁).isDue = true →
      (y.letters q₂).isDue = true → q₂ = q₁)
    (hunasked : phase.waits = true → y.letters q = .unasked →
      y.traffic.pool.slot id = .waiting ∨ y.traffic.pool.closed = true)
    (hresult : ∀ e, phase.holds = true → y.traffic.pool.slot id = .completed (.ok e) →
      y.origin id = some q ∧ y.letters q = .arrived e)
    (hspent : ∀ r, phase.holds = true → r ∈ y.taken → r.request = q →
      y.traffic.pool.slot id = .consumed) : y.Orderly id where
  due := hdue
  single := hsingle
  unasked q' phase' hc hwaits := by
    obtain ⟨rfl, rfl⟩ := hown q' phase' hc hwaits
    exact hunasked hwaits
  result q' phase' e hc hholds := by
    obtain ⟨rfl, rfl⟩ := hown q' phase' hc (waits_of_holds hholds)
    exact hresult e hholds
  spent q' phase' r hc hholds := by
    obtain ⟨rfl, rfl⟩ := hown q' phase' hc (waits_of_holds hholds)
    exact hspent r hholds

namespace Faithful

/-- While a request has an id and has not sent anything, an answer that is due there comes to
a closed pool and to nobody. -/
theorem due_of_unasked (h : x.Faithful) (hc : x.traffic.caller q = some ⟨id, phase⟩)
    (ho : phase.owns = true) (hun : x.letters q = .unasked)
    (hc' : x.traffic.caller q' = some ⟨id, phase'⟩) (hdue : (x.letters q').isDue = true) :
    x.traffic.pool.closed = true ∧ ∀ q'' phase'', x.traffic.caller q'' = some ⟨id, phase''⟩ →
      phase''.holds = true → q'' = q' := by
  rcases (h.orderly id).due q' phase' hc' hdue with ⟨hholds, _⟩ | hslot | hclosed
  · obtain rfl := h.sound.alone hc ho hc' (owns_of_waits (waits_of_holds hholds))
    rw [hun] at hdue
    cases hdue
  · exact absurd hslot (h.sound.owner hc ho).2.2.2
  · exact hclosed

theorem unasked_of_phase (h : x.Faithful) (hc : x.traffic.caller q = some ⟨id, phase⟩)
    (hphase : phase.isAsked = false) : x.letters q = .unasked := by
  by_cases hun : x.letters q = .unasked
  · exact hun
  · obtain ⟨id', phase', hc', hasked, _⟩ := h.asked q hun
    rw [hc] at hc'
    cases hc'
    rw [hphase] at hasked
    cases hasked

theorem ne_of_unasked (h : x.Faithful) (hun : x.letters q = .unasked) {r : Taken}
    (hr : r ∈ x.taken) : r.request ≠ q := by
  rintro rfl
  cases hun.symm.trans (h.taken r hr).2

/-- The only request that may wait on an id after a step of its owner. -/
theorem waits_put (h : x.Faithful) (hc : x.traffic.caller q = some ⟨id, phase⟩)
    (ho : phase.owns = true) {pool : StreamPool} {q'' : Nat} {phase'' : Phase}
    (hc'' : (x.traffic.put q ⟨id, phase'⟩ pool).caller q'' = some ⟨id, phase''⟩)
    (hwaits : phase''.waits = true) : q'' = q ∧ phase'' = phase' := by
  rcases caller_put_eq_some hc hc'' with ⟨rfl, heq⟩ | ⟨hne, hold⟩
  · cases heq
    exact ⟨rfl, rfl⟩
  · exact absurd (h.sound.alone hc ho hold (owns_of_waits hwaits)) hne

/-- No step of a request makes a second answer due on an id. -/
theorem single_put (h : x.Faithful) (hc : x.traffic.caller q = some ⟨id, phase⟩)
    {pool : StreamPool} {q₁ q₂ : Nat} {phase₁ phase₂ : Phase}
    (hc₁ : (x.traffic.put q ⟨id, phase'⟩ pool).caller q₁ = some ⟨id, phase₁⟩)
    (hc₂ : (x.traffic.put q ⟨id, phase'⟩ pool).caller q₂ = some ⟨id, phase₂⟩)
    (hdue₁ : (x.letters q₁).isDue = true) (hdue₂ : (x.letters q₂).isDue = true) : q₂ = q₁ := by
  have hold : ∀ {q'' phase''}, (x.traffic.put q ⟨id, phase'⟩ pool).caller q'' =
      some ⟨id, phase''⟩ → ∃ phase, x.traffic.caller q'' = some ⟨id, phase⟩ := by
    intro q'' phase'' hc''
    rcases caller_put_eq_some hc hc'' with ⟨rfl, _⟩ | ⟨_, hold⟩
    · exact ⟨phase, hc⟩
    · exact ⟨phase'', hold⟩
  obtain ⟨old₁, hold₁⟩ := hold hc₁
  obtain ⟨old₂, hold₂⟩ := hold hc₂
  exact (h.orderly id).single q₁ q₂ old₁ old₂ hold₁ hold₂ hdue₁ hdue₂

/-- A quiet step of the owner of an id. -/
theorem ownerStep (h : x.Faithful) {pool : StreamPool}
    (hc : x.traffic.caller q = some ⟨id, phase⟩)
    (hagrees : x.traffic.pool.AgreesOff id pool)
    (hsound : (x.traffic.put q ⟨id, phase'⟩ pool).Sound)
    (hasked : phase.isAsked = true → phase'.isAsked = true)
    (hself : Orderly { x with traffic := x.traffic.put q ⟨id, phase'⟩ pool } id) :
    Faithful { x with traffic := x.traffic.put q ⟨id, phase'⟩ pool } where
  sound := hsound
  asked q' hne := by
    obtain ⟨i, old, hold, holdAsked, hlt⟩ := h.asked q' hne
    have hsize : (x.traffic.put q ⟨id, phase'⟩ pool).pool.size = x.traffic.pool.size :=
      hagrees.size
    by_cases hq : q' = q
    · subst hq
      rw [hc] at hold
      cases hold
      exact ⟨id, phase', by simp [caller_put hc], hasked holdAsked, hsize ▸ hlt⟩
    · exact ⟨i, old, by simp [caller_put hc, hq, hold], holdAsked, hsize ▸ hlt⟩
  stream q' i phase'' e hl hc' := by
    rcases caller_put_eq_some hc hc' with ⟨rfl, heq⟩ | ⟨_, hold⟩
    · cases heq
      exact h.stream q' id phase e hl hc
    · exact h.stream q' i phase'' e hl hold
  orderly i := by
    by_cases hi : i = id
    · exact hi ▸ hself
    · exact (h.orderly i).keep (keeps_put hc fun heq _ => absurd heq.symm hi) (hagrees.slot i hi)
        (fun hcl => hagrees.closed.trans hcl) rfl (fun _ hr => .inl hr)
  taken := h.taken
  once := h.once

/-- A step that keeps all requests and changes one slot at most. -/
theorem poolStep (h : x.Faithful) {pool : StreamPool} {closing : Option (CallFault × Nat)}
    (hagrees : x.traffic.pool.AgreesOff id pool)
    (hsound : (Traffic.mk pool x.traffic.callers closing).Sound)
    (hself : Orderly { x with traffic := ⟨pool, x.traffic.callers, closing⟩ } id) :
    Faithful { x with traffic := ⟨pool, x.traffic.callers, closing⟩ } where
  sound := hsound
  asked q hne := by
    obtain ⟨i, old, hold, hasked, hlt⟩ := h.asked q hne
    exact ⟨i, old, hold, hasked, hagrees.size.symm ▸ hlt⟩
  stream := h.stream
  orderly i := by
    by_cases hi : i = id
    · exact hi ▸ hself
    · exact (h.orderly i).keep (Keeps.refl x i) (hagrees.slot i hi)
        (fun hcl => hagrees.closed.trans hcl) rfl (fun _ hr => .inl hr)
  taken := h.taken
  once := h.once

end Faithful

end Exchange

end CqlClient
