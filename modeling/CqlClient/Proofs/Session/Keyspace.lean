import CqlClient.Proofs.Session.Client.Keyspace
import CqlClient.Proofs.Session.Correlation

/-!
# The keyspace of a session and that of the other side

Calls of one session go on at the same time. The other side executes the requests in the order in
which it gets them and answers in that order; but each call sets the keyspace of the session by
itself, when it goes on with its answer, and calls go on in any order.

* `Calls.Step.matched`, `Calls.Reachable.matched`: every call returns with the answer to its own
  request, and the keyspace of the session is the one that was named last by a call that returned;
* `Calls.session_of_returns`: once all calls have returned, it is the one that was named last by the
  other side, provided that those calls that name one return in the order of their requests;
* `Calls.session_of_two_overtaken`: without that, it need not be.
-/

namespace CqlClient

/-- The answer to a call, known by the place of its request. -/
structure Answer where
  call : Nat
  envelope : Envelope

/-- Calls of a session, on a connection that they share. -/
structure Calls where
  exchange : Exchange
  /-- The calls whose frames are handed over, in order. -/
  sent : List Nat
  /-- The answers to the requests that the other side has executed, in order. -/
  executed : List Answer
  /-- How many answers have come. -/
  delivered : Nat
  /-- The keyspace of the session. -/
  session : Option String
  /-- The answers that calls have gone on with, in order. -/
  returned : List Answer

/-- The envelope that the other side has answered with. -/
def Letter.envelope? : Letter → Option Envelope
  | answered e | arrived e => some e
  | unasked | asked => none

/-- An operation goes on with the answer to its request. -/
def Client.GoesOn (c : Client) (goal : Goal) (answer : Except ExecutionFault Response)
    (event : Event) : Prop :=
  ∃ id ready stream, event = .turn (.operation id) ready ∧
    c.operations.lookup id = some (.waiting stream goal) ∧ c.answer? stream = some answer

namespace Calls

open Function Traffic

def new (size : Nat) : Calls := ⟨.new size, [], [], 0, none, []⟩

section Steps

-- what the calls are for, and how answers are read on their connection
variable (goals : Nat → Goal) (n : Connection) (limit : Nat)

/-- The keyspace that an answer names. -/
def named? (a : Answer) : Option String :=
  (goals a.call).named? (Client.readAnswer n limit (.ok a.envelope))

/-- The steps of `Exchange`, the other side taking requests in order, and what happens meanwhile to
the client that they are calls of, of which only the keyspace is looked at. -/
inductive Step (x : Calls) : Calls → Prop
  | quiet {m : Move} {t : Traffic} : m.isQuiet = true → x.exchange.traffic.Step m t →
      Step x { x with exchange := { x.exchange with traffic := t } }
  | send {q : Nat} {t : Traffic} : x.exchange.traffic.Step (.send q) t →
      Step x { x with
        exchange := { x.exchange with
          traffic := t, letters := update x.exchange.letters q .asked }
        sent := x.sent ++ [q] }
  | execute {q id : Nat} {phase : Phase} {e : Envelope} {later : List Nat} :
      x.sent = x.executed.map Answer.call ++ q :: later → x.exchange.letters q = .asked →
      x.exchange.traffic.caller q = some ⟨id, phase⟩ → e.stream = Int16.ofNat id →
      Step x { x with
        exchange := { x.exchange with letters := update x.exchange.letters q (.answered e) }
        executed := x.executed ++ [⟨q, e⟩] }
  | deliver {q : Nat} {e : Envelope} {t : Traffic} : x.executed[x.delivered]? = some ⟨q, e⟩ →
      x.exchange.letters q = .answered e → x.exchange.traffic.Step (.receive e) t →
      Step x { x with
        exchange := { x.exchange with
          traffic := t
          letters := update x.exchange.letters q (.arrived e)
          origin := update x.exchange.origin e.stream.toInt.toNat (some q) }
        delivered := x.delivered + 1 }
  | take {q id : Nat} {phase : Phase} {e : Envelope} {t : Traffic} :
      x.exchange.traffic.caller q = some ⟨id, phase⟩ →
      x.exchange.traffic.Step (.take q (.ok e)) t →
      Step x { x with exchange := { x.exchange with
        traffic := t, taken := x.exchange.taken ++ [⟨q, x.exchange.origin id, e⟩] } }
  /-- A call that has taken its answer goes on with it. -/
  | goOn {q : Nat} {source : Option Nat} {e : Envelope} {c : Client} {event : Client.Event} :
      ⟨q, source, e⟩ ∈ x.exchange.taken → q ∉ x.returned.map Answer.call →
      c.keyspace = x.session → c.GoesOn (goals q) (Client.readAnswer n limit (.ok e)) event →
      Step x { x with
        session := (c.happen event).keyspace
        returned := x.returned ++ [⟨q, e⟩] }
  /-- Anything happens but that an operation goes on with a response. -/
  | other {c : Client} {event : Client.Event} : c.keyspace = x.session →
      (∀ goal response, ¬ c.GoesOn goal (.ok response) event) →
      Step x { x with session := (c.happen event).keyspace }

/-- The states that the calls of a session come to. -/
inductive Reachable (size : Nat) : Calls → Prop
  | new : Reachable size (.new size)
  | step {x y : Calls} : Reachable size x → Step goals n limit x y → Reachable size y

/-- Every call that has returned has done so once, with the answer that the other side has given to
it, and the keyspace is the one that was named last. -/
structure Matched (x : Calls) : Prop where
  faithful : x.exchange.Faithful
  executed : ∀ a, a ∈ x.executed ↔ (x.exchange.letters a.call).envelope? = some a.envelope
  taken : ∀ a, a ∈ x.returned →
    ∃ r, r ∈ x.exchange.taken ∧ r.request = a.call ∧ r.envelope = a.envelope
  returnedOnce : (x.returned.map Answer.call).Nodup
  session : x.session = (x.returned.filterMap (named? goals n limit)).getLast?

end Steps

variable {goals : Nat → Goal} {n : Connection} {limit size : Nat} {x y : Calls}

/-! ## What a client does meanwhile -/

theorem named?_of_goesOn {c : Client} {goal : Goal} {answer : Except ExecutionFault Response}
    {event : Client.Event} (h : c.GoesOn goal answer event) :
    c.named? event = goal.named? answer := by
  obtain ⟨id, ready, stream, rfl, hstage, hanswer⟩ := h
  rw [Client.named?, hstage, Option.bind_some, Client.stageNamed?, hanswer, Option.bind_some]

theorem named?_of_not_goesOn {c : Client} {event : Client.Event}
    (h : ∀ goal response, ¬ c.GoesOn goal (.ok response) event) : c.named? event = none := by
  rw [Option.eq_none_iff_forall_ne_some]
  intro keyspace hnamed
  cases event with
  | turn task ready =>
    cases task with
    | operation id =>
      obtain ⟨stage, hstage, hnamed⟩ := Option.bind_eq_some_iff.mp hnamed
      cases stage with
      | waiting stream goal =>
        obtain ⟨answer, hanswer, hnamed⟩ := Option.bind_eq_some_iff.mp hnamed
        cases answer with
        | ok response => exact h goal response ⟨id, ready, stream, rfl, hstage, hanswer⟩
        | error fault => cases goal <;> cases hnamed
      | _ => cases hnamed
    | _ => cases hnamed
  | _ => cases hnamed

/-! ## Answers and calls -/

/-- The answer that a call has taken is one that the other side has given. -/
theorem Matched.mem_executed (h : x.Matched goals n limit) {a : Answer} (ha : a ∈ x.returned) :
    a ∈ x.executed := by
  obtain ⟨r, hr, hcall, henvelope⟩ := h.taken a ha
  have harrived := (h.faithful.taken r hr).2
  rw [h.executed, ← hcall, ← henvelope, harrived]
  rfl

/-- A call that has returned has done so with the answer to its own request. -/
theorem Matched.mem_returned (h : x.Matched goals n limit) {a : Answer} (ha : a ∈ x.executed)
    (hcall : a.call ∈ x.returned.map Answer.call) : a ∈ x.returned := by
  obtain ⟨b, hb, heq⟩ := List.mem_map.mp hcall
  have hgiven := (h.executed b).mp (h.mem_executed hb)
  rw [heq, (h.executed a).mp ha] at hgiven
  obtain ⟨call, envelope⟩ := a
  obtain ⟨call', envelope'⟩ := b
  cases heq
  cases hgiven
  exact hb

/-! ## Steps -/

theorem Step.exchange (hstep : Step goals n limit x y) :
    y.exchange = x.exchange ∨ x.exchange.Step y.exchange := by
  cases hstep with
  | quiet hm ht => exact .inr (.quiet hm ht)
  | send ht => exact .inr (.send ht)
  | execute _ hl hc he => exact .inr (.answer hl hc he)
  | deliver _ hl ht => exact .inr (.deliver hl ht)
  | take hc ht => exact .inr (.take hc ht)
  | goOn => exact .inl rfl
  | other => exact .inl rfl

theorem getLast?_filterMap_append {α β : Type} (f : α → Option β) (as : List α) (a : α) :
    ((as ++ [a]).filterMap f).getLast? = (f a).or (as.filterMap f).getLast? := by
  rw [List.filterMap_append, List.getLast?_append]
  cases hf : f a <;> simp [hf]

theorem matched_new : (new size).Matched goals n limit where
  faithful := Exchange.faithful_new size
  executed a := by simp [new, Exchange.new, Letter.envelope?]
  taken _ ha := by cases ha
  returnedOnce := .nil
  session := rfl

/-- Where an answer is does not matter. -/
theorem Matched.executed_update (h : x.Matched goals n limit) {q : Nat} {letter : Letter}
    (hletter : letter.envelope? = (x.exchange.letters q).envelope?) :
    ∀ a, a ∈ x.executed ↔
      (update x.exchange.letters q letter a.call).envelope? = some a.envelope := by
  intro a
  rw [h.executed]
  by_cases hq : a.call = q
  · rw [hq, update_self, hletter]
  · rw [update_of_ne hq]

theorem Matched.call_ne (h : x.Matched goals n limit) {q : Nat}
    (hl : x.exchange.letters q = .asked) {a : Answer} (ha : a ∈ x.executed) : a.call ≠ q := by
  rintro rfl
  have hgiven := (h.executed a).mp ha
  rw [hl] at hgiven
  cases hgiven

theorem Matched.executed_append (h : x.Matched goals n limit) {q : Nat} (e : Envelope)
    (hl : x.exchange.letters q = .asked) :
    ∀ a, a ∈ x.executed ++ [⟨q, e⟩] ↔
      (update x.exchange.letters q (.answered e) a.call).envelope? = some a.envelope := by
  rintro ⟨q', e'⟩
  rw [List.mem_append, List.mem_singleton]
  by_cases hq : q' = q
  · subst hq
    rw [update_self]
    constructor
    · rintro (ha | heq)
      · exact absurd rfl (h.call_ne hl ha)
      · cases heq
        rfl
    · intro hgiven
      cases hgiven
      exact .inr rfl
  · rw [update_of_ne hq]
    refine Iff.trans (or_iff_left fun heq => hq ?_) (h.executed ⟨q', e'⟩)
    cases heq
    rfl

theorem Step.matched (hstep : Step goals n limit x y) (h : x.Matched goals n limit) :
    y.Matched goals n limit := by
  have hfaithful : y.exchange.Faithful := by
    rcases hstep.exchange with heq | hstep
    · exact heq ▸ h.faithful
    · exact hstep.faithful h.faithful
  cases hstep with
  | quiet => exact ⟨hfaithful, h.executed, h.taken, h.returnedOnce, h.session⟩
  | send ht =>
    cases ht with
    | send hc =>
      refine ⟨hfaithful, h.executed_update ?_, h.taken, h.returnedOnce, h.session⟩
      rw [h.faithful.unasked_of_phase hc rfl]
      rfl
  | execute _ hl =>
    exact ⟨hfaithful, h.executed_append _ hl, h.taken, h.returnedOnce, h.session⟩
  | deliver _ hl =>
    refine ⟨hfaithful, h.executed_update ?_, h.taken, h.returnedOnce, h.session⟩
    rw [hl]
    rfl
  | take =>
    refine ⟨hfaithful, h.executed, fun a ha => ?_, h.returnedOnce, h.session⟩
    obtain ⟨r, hr, heq⟩ := h.taken a ha
    exact ⟨r, List.mem_append_left _ hr, heq⟩
  | @goOn q source e c event htaken hnew hkeyspace hgoes =>
    refine ⟨hfaithful, h.executed, fun a ha => ?_, ?_, ?_⟩
    · rcases List.mem_append.mp ha with ha | ha
      · exact h.taken a ha
      · obtain rfl := List.mem_singleton.mp ha
        exact ⟨_, htaken, rfl, rfl⟩
    · rw [List.map_append, List.nodup_append]
      refine ⟨h.returnedOnce, by simp, fun call hcall call' hcall' => ?_⟩
      obtain rfl : call' = q := by simpa using hcall'
      rintro rfl
      exact hnew hcall
    · rw [getLast?_filterMap_append, ← h.session, ← hkeyspace, Client.keyspace_happen,
        named?_of_goesOn hgoes]
      rfl
  | other hkeyspace hnothing =>
    refine ⟨hfaithful, h.executed, h.taken, h.returnedOnce, ?_⟩
    rw [← h.session, ← hkeyspace, Client.keyspace_happen, named?_of_not_goesOn hnothing]
    rfl

theorem Reachable.matched (h : Reachable goals n limit size x) : x.Matched goals n limit := by
  induction h with
  | new => exact matched_new
  | step _ hstep ih => exact hstep.matched ih

/-! ## The last one -/

section Lists

variable {α β : Type} {f : α → Option β}

theorem getLast?_filterMap_eq_some_iff {as : List α} {b : β} :
    (as.filterMap f).getLast? = some b ↔
      ∃ front a back, as = front ++ a :: back ∧ f a = some b ∧ ∀ a', a' ∈ back → f a' = none := by
  rw [List.getLast?_filterMap, List.findSome?_eq_some_iff]
  constructor
  · rintro ⟨back, a, front, heq, ha, hback⟩
    refine ⟨front.reverse, a, back.reverse, ?_, ha, fun a' ha' => hback a' (by simpa using ha')⟩
    rw [← List.reverse_reverse as, heq]
    simp
  · rintro ⟨front, a, back, rfl, ha, hback⟩
    exact ⟨back.reverse, a, front.reverse, by simp, ha, fun a' ha' => hback a' (by simpa using ha')⟩

theorem not_sublist_swap {a b : α} {as : List α} (h : as.Nodup) (hab : [a, b].Sublist as) :
    ¬ [b, a].Sublist as := by
  induction as with
  | nil => cases hab
  | cons c as ih =>
    obtain ⟨hc, has⟩ := List.nodup_cons.mp h
    intro hba
    cases hab with
    | cons _ hab =>
      cases hba with
      | cons _ hba => exact ih has hab hba
      | cons_cons _ _ => exact hc (hab.subset (by simp))
    | cons_cons _ _ =>
      cases hba with
      | cons _ hba => exact hc (hba.subset (by simp))
      | cons_cons _ hba => exact hc (hba.subset (by simp))

/-- Two lists with the same elements end alike if those that count stand in the same order. -/
theorem getLast?_filterMap_of_ordered {as bs : List α} (hbs : bs.Nodup)
    (hmem : ∀ a, a ∈ as ↔ a ∈ bs)
    (hordered : ∀ a b, (f a).isSome = true → (f b).isSome = true → [a, b].Sublist as →
      [a, b].Sublist bs) :
    (bs.filterMap f).getLast? = (as.filterMap f).getLast? := by
  cases has : (as.filterMap f).getLast? with
  | none =>
    rw [List.getLast?_filterMap, List.findSome?_eq_none_iff] at has ⊢
    intro b hb
    exact has b (List.mem_reverse.mpr ((hmem b).mpr (List.mem_reverse.mp hb)))
  | some v =>
    obtain ⟨front, a, back, rfl, ha, hback⟩ := getLast?_filterMap_eq_some_iff.mp has
    obtain ⟨front', back', rfl⟩ := List.append_of_mem ((hmem a).mp (by simp))
    refine getLast?_filterMap_eq_some_iff.mpr ⟨front', a, back', rfl, ha, fun b hb => ?_⟩
    by_contra hne
    have hab : [a, b].Sublist (front' ++ a :: back') :=
      ((List.singleton_sublist.mpr hb).cons_cons a).trans (List.sublist_append_right _ _)
    have hsome : (f b).isSome = true := Option.isSome_iff_ne_none.mpr hne
    rcases List.mem_append.mp ((hmem b).mpr (by simp [hb])) with hfront | hrest
    · -- it comes before the last one there, so it does here
      have hba : [b, a].Sublist (front ++ a :: back) :=
        (List.singleton_sublist.mpr hfront).append (List.singleton_sublist.mpr (by simp))
      exact not_sublist_swap hbs hab (hordered b a hsome (by rw [ha]; rfl) hba)
    · rcases List.mem_cons.mp hrest with rfl | hrest
      · exact not_sublist_swap hbs hab hab
      · exact hne (hback b hrest)

end Lists

/-- The keyspace of the session is the one that was named last by a call that has returned. It
changes only when a call returns whose answer names another one: one of a statement that the other
side has executed. Once all that the other side has executed has returned, and what names a keyspace
has returned in the order in which it was executed, the keyspace is the one that was named last by
the other side. -/
theorem session_of_returns (h : Reachable goals n limit size x) :
    x.session = (x.returned.filterMap (named? goals n limit)).getLast? ∧
    (∀ y, Step goals n limit x y → y.session = x.session ∨
      ∃ a keyspace, y.returned = x.returned ++ [a] ∧ a ∈ x.executed ∧
        named? goals n limit a = some keyspace ∧ y.session = some keyspace) ∧
    ((∀ a, a ∈ x.executed → a.call ∈ x.returned.map Answer.call) →
      (∀ a b, (named? goals n limit a).isSome = true → (named? goals n limit b).isSome = true →
        [a, b].Sublist x.executed → [a, b].Sublist x.returned) →
      x.session = (x.executed.filterMap (named? goals n limit)).getLast?) := by
  have hmatched := h.matched
  refine ⟨hmatched.session, fun y hstep => ?_, fun hall hordered => ?_⟩
  · have hmatched' := hstep.matched hmatched
    cases hstep with
    | @goOn q source e c event htaken hnew hkeyspace hgoes =>
      have ha : ⟨q, e⟩ ∈ x.executed := hmatched'.mem_executed (List.mem_append_right _ (by simp))
      have hsession : (c.happen event).keyspace = (named? goals n limit ⟨q, e⟩).or x.session := by
        rw [Client.keyspace_happen, named?_of_goesOn hgoes, hkeyspace]
        rfl
      cases hnamed : named? goals n limit ⟨q, e⟩ with
      | none => exact .inl (by rw [hsession, hnamed, Option.none_or])
      | some keyspace =>
        exact .inr ⟨⟨q, e⟩, keyspace, rfl, ha, hnamed, by rw [hsession, hnamed, Option.some_or]⟩
    | other hkeyspace hnothing =>
      refine .inl ?_
      rw [Client.keyspace_happen, named?_of_not_goesOn hnothing, hkeyspace]
      rfl
    | _ => exact .inl rfl
  · rw [hmatched.session]
    have hnodup : x.returned.Nodup := List.Pairwise.of_map Answer.call
      (fun a b hne heq => hne (congrArg Answer.call heq)) hmatched.returnedOnce
    refine getLast?_filterMap_of_ordered hnodup (fun a => ?_) hordered
    exact ⟨fun ha => hmatched.mem_returned ha (hall a ha), hmatched.mem_executed⟩

/-! ## Two statements at the same time -/

/-- A call that has taken its answer can go on with it. -/
theorem goOn_of_taken {q : Nat} {s : Option Nat} {e : Envelope}
    (htaken : ⟨q, s, e⟩ ∈ x.exchange.taken) (hnew : q ∉ x.returned.map Answer.call) :
    Step goals n limit x { x with
      session := (named? goals n limit ⟨q, e⟩).or x.session
      returned := x.returned ++ [⟨q, e⟩] } := by
  let c : Client := {
    config := { depthLimit := limit }, received := [], ended := false, deaf := false, sent := []
    hungUp := false
    connection := some { n with pool := ⟨#[.completed (.ok e)], 0, false⟩ }
    isOpen := true, keyspace := x.session, results := [], held := [], statements := []
    operations := [("", .waiting 0 (goals q))], ready := [], finished := [] }
  have hgoes : c.GoesOn (goals q) (Client.readAnswer n limit (.ok e)) (.turn (.operation "") []) :=
    ⟨"", [], 0, rfl, rfl, rfl⟩
  have hstep : Step goals n limit x _ := .goOn htaken hnew rfl hgoes
  rw [Client.keyspace_happen, named?_of_goesOn hgoes] at hstep
  exact hstep

/-- The answer to a statement that uses a keyspace of one letter. -/
def useAnswer (stream : Int16) (letter : UInt8) : Envelope :=
  ⟨0x84, .none, stream, .result, [0, 0, 0, 3, 0, 1, letter]⟩

def twoUses : Nat → Goal
  | 0 => .result ⟨.text "USE x", .empty, {}⟩
  | _ => .result ⟨.text "USE y", .empty, {}⟩

def twoStreams : Connection where
  pool := .new 2
  extensions := .none
  sharding := none
  queue := []
  senders := []
  granted := 0
  reading := true
  writing := true
  stopping := false
  released := false

/-- Two calls have taken the answers to their statements, which were executed one after the other,
and go on next. -/
theorem reachable_twoUses : ∃ x, Reachable twoUses twoStreams 1 2 x ∧ x.sent = [0, 1] ∧
    x.executed = [⟨0, useAnswer 0 0x78⟩, ⟨1, useAnswer 1 0x79⟩] ∧ x.returned = [] ∧
    x.exchange.taken = [⟨0, some 0, useAnswer 0 0x78⟩, ⟨1, some 1, useAnswer 1 0x79⟩] := by
  have h : Reachable twoUses twoStreams 1 2 (.new 2) := .new
  have h := h.step (.quiet rfl (.enter rfl))
  have h := h.step (.quiet rfl (.claim rfl rfl : Traffic.Step _ (.claim 0 0) _))
  have h := h.step (.quiet rfl (.arm (q := 0) rfl))
  have h := h.step (.quiet rfl (.recheck (q := 0) rfl))
  have h := h.step (.send (.send (q := 0) rfl))
  have h := h.step (.quiet rfl (.noteSent (q := 0) rfl))
  have h := h.step (.quiet rfl (.enter rfl))
  have h := h.step (.quiet rfl (.claim rfl rfl : Traffic.Step _ (.claim 1 1) _))
  have h := h.step (.quiet rfl (.arm (q := 1) rfl))
  have h := h.step (.quiet rfl (.recheck (q := 1) rfl))
  have h := h.step (.send (.send (q := 1) rfl))
  have h := h.step (.quiet rfl (.noteSent (q := 1) rfl))
  have h := h.step (.execute (q := 0) (e := useAnswer 0 0x78) rfl rfl rfl rfl)
  have h := h.step (.execute (q := 1) (e := useAnswer 1 0x79) rfl rfl rfl rfl)
  have h := h.step (.deliver (q := 0) rfl rfl (.receive _))
  have h := h.step (.deliver (q := 1) rfl rfl (.receive _))
  have h := h.step (.take (q := 0) rfl (.take rfl rfl rfl))
  have h := h.step (.take (q := 1) rfl (.take rfl rfl rfl))
  exact ⟨_, h, rfl, rfl, rfl, rfl⟩

theorem session_of_returns_twoUses : ∃ x, Reachable twoUses twoStreams 1 2 x ∧
    x.sent = [0, 1] ∧ x.returned.map Answer.call = [0, 1] ∧
    (∀ a, a ∈ x.executed → a.call ∈ x.returned.map Answer.call) ∧
    x.session = (x.executed.filterMap (named? twoUses twoStreams 1)).getLast? ∧
    x.session = some "y" := by
  obtain ⟨x, h, hsent, hexecuted, hreturned, htaken⟩ := reachable_twoUses
  have h := h.step (goOn_of_taken (q := 0) (s := some 0) (e := useAnswer 0 0x78)
    (by simp [htaken]) (by simp [hreturned]))
  have h := h.step (goOn_of_taken (q := 1) (s := some 1) (e := useAnswer 1 0x79)
    (by simp [htaken]) (by simp [hreturned]))
  have hlast := (session_of_returns h).2.2 (by simp [hexecuted, hreturned])
    (by simp [hexecuted, hreturned])
  refine ⟨_, h, hsent, by simp [hreturned], by simp [hexecuted, hreturned], hlast, ?_⟩
  rw [hlast, hexecuted]
  rfl

/-- Both calls have returned, and the session has the keyspace that was used first. -/
theorem session_of_two_overtaken : ∃ x, Reachable twoUses twoStreams 1 2 x ∧
    x.sent = [0, 1] ∧ x.executed.map Answer.call = [0, 1] ∧
    x.returned.map Answer.call = [1, 0] ∧ x.session = some "x" ∧
    (x.executed.filterMap (named? twoUses twoStreams 1)).getLast? = some "y" := by
  obtain ⟨x, h, hsent, hexecuted, hreturned, htaken⟩ := reachable_twoUses
  have h := h.step (goOn_of_taken (q := 1) (s := some 1) (e := useAnswer 1 0x79)
    (by simp [htaken]) (by simp [hreturned]))
  have h := h.step (goOn_of_taken (q := 0) (s := some 0) (e := useAnswer 0 0x78)
    (by simp [htaken]) (by simp [hreturned]))
  refine ⟨_, h, hsent, by simp [hexecuted], by simp [hreturned], rfl, ?_⟩
  rw [hexecuted]
  rfl

end Calls

end CqlClient
