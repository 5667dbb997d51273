import CqlClient.Proofs.Session.ResultSet
import Mathlib.Data.List.Forall2
import Mathlib.Logic.Function.Basic

/-!
# Paging through a shared result

A node serves a finite chain of pages, and any number of calls take rows of one result, ask for more
pages, or try to take a row without waiting, in any order. `Paging.Step` has every step of a call;
between two steps the others may take theirs.

* `Paging.Accounted`: the rows taken, the rows that have come and the rows of the pages to come are
  the rows of the chain, in their order, and the requests are those of its pages;
* `Paging.Step.accounted`: every step keeps this so;
* `Paging.rows_taken_once`: what this says of every run.
-/

namespace CqlClient

/-- Whether a paging state leads to the pages: one that has none after it comes last. -/
def NodePage.Linked : Option Bytes → List NodePage → Prop
  | none, [] => True
  | some _, p :: pages => Linked p.next pages
  | _, _ => False

namespace PageSource

/-- The requests of the pages that a paging state leads to. -/
def requests (source : PageSource) : Option Bytes → List NodePage → List (Request × Bool)
  | some t, p :: pages =>
    (source.request (some t), source.options.tracing) :: source.requests p.next pages
  | _, _ => []

/-- What is sent asks for the page of a paging state, with tracing as the options say. -/
def Sends (source : PageSource) (t : Bytes) (sent : Request × Bool) : Prop :=
  source.Requested (some t) sent.1 ∧ sent.2 = source.options.tracing

theorem sends_request (source : PageSource) (t : Bytes) :
    source.Sends t (source.request (some t), source.options.tracing) :=
  ⟨source.requested_request (some t), rfl⟩

/-- Pages are asked for by the state that leads to them and by those between them. -/
theorem requests_eq (source : PageSource) {state : Option Bytes} {pages : List NodePage}
    (h : NodePage.Linked state pages) :
    source.requests state pages =
      (state.toList ++ pages.filterMap (·.next)).map fun t =>
        (source.request (some t), source.options.tracing) := by
  induction pages generalizing state with
  | nil =>
    cases state with
    | none => rfl
    | some t => exact h.elim
  | cons p pages ih =>
    cases state with
    | none => exact h.elim
    | some t =>
      rw [requests, ih h, List.filterMap_cons]
      cases p.next <;> rfl

end PageSource

/-- All pages of a statement. -/
structure Chain where
  first : NodePage
  rest : List NodePage

namespace Chain

def rows (chain : Chain) : List Row := chain.first.meant ++ chain.rest.flatMap (·.meant)

/-- Whether the pages are well formed for the result of a statement. Later pages may come without
columns, which are then those of the first page. -/
structure IsWellFormed (r : Registry) (source : PageSource) (chain : Chain) : Prop where
  first : chain.first.IsWellFormed r source.columns?
  rest : ∀ p, p ∈ chain.rest →
    p.IsWellFormed r (source.columns? <|> some (chain.first.columns source.columns?))
  linked : NodePage.Linked chain.first.next chain.rest

/-- The paging states of the pages, each of which leads to the next page. -/
def states (chain : Chain) : List Bytes := (chain.first :: chain.rest).filterMap (·.next)

theorem requests_eq {r : Registry} {source : PageSource} {chain : Chain}
    (h : chain.IsWellFormed r source) :
    source.requests chain.first.next chain.rest =
      chain.states.map fun t => (source.request (some t), source.options.tracing) := by
  rw [source.requests_eq h.linked, states, List.filterMap_cons]
  cases chain.first.next <;> rfl

/-- The paging state after the first page and `served` more. -/
def stateAfter (chain : Chain) (served : List NodePage) : Option Bytes :=
  ((chain.first :: served).getLast (List.cons_ne_nil _ _)).next

end Chain

/-- How far a call has come. -/
inductive Paging.Call where
  | entering (want : Want)
  /-- It has the cursor or waits for it. -/
  | locking (want : Want)
  /-- It has the cursor and waits for a page. -/
  | fetching (want : Want)
  /-- It has the cursor, and a page has come. -/
  | holding (want : Want)

/-- Whether a call cannot do without the cursor. -/
def Paging.Call.keeps : Call → Bool
  | fetching _ | holding _ => true
  | entering _ | locking _ => false

structure Paging where
  shared : SharedResult
  calls : OperationId → Option Paging.Call
  /-- The pages that are still to be served. -/
  unserved : List NodePage
  requests : List (Request × Bool)
  /-- The rows and faults that calls have taken, in order. -/
  taken : List (Except ExecutionFault Row)
  /-- What calls that wait have ended with, in order. -/
  ended : List Service

namespace Paging

open Function

def new (s : ResultSet) (pages : List NodePage) : Paging :=
  ⟨⟨s, none, []⟩, fun _ => none, pages, [], [], []⟩

/-- Ends a call that has the cursor. -/
def finish (x : Paging) (id : OperationId) (service : Service) (result : ResultSet) : Paging :=
  { x with
    shared := { x.shared with result }.unlock
    calls := update x.calls id none
    taken := x.taken ++ service.items
    ended := x.ended ++ [service] }

inductive Step (r : Registry) (x : Paging) : Paging → Prop
  | enter {id : OperationId} {want : Want} : x.calls id = none →
      (want = .row → x.shared.result.exhausted = false) →
      Step r x { x with calls := update x.calls id (some (.entering want)) }
  /-- A result that is exhausted has no row, whoever has the cursor. -/
  | turnAway {id : OperationId} : x.calls id = none → x.shared.result.exhausted = true →
      Step r x { x with ended := x.ended ++ [.row none] }
  | lock {id : OperationId} {want : Want} : x.calls id = some (.entering want) →
      Step r x { x with
        shared := x.shared.lock id
        calls := update x.calls id (some (.locking want)) }
  | serve {id : OperationId} {want : Want} {service : Service} {result : ResultSet} :
      x.calls id = some (.locking want) ∨ x.calls id = some (.holding want) →
      x.shared.holder = some id → x.shared.result.serve r want = (.inl service, result) →
      Step r x (x.finish id service result)
  | fetch {id : OperationId} {want : Want} {request : Request × Bool} {result : ResultSet} :
      x.calls id = some (.locking want) ∨ x.calls id = some (.holding want) →
      x.shared.holder = some id → x.shared.result.serve r want = (.inr request, result) →
      Step r x { x with
        shared := { x.shared with result }
        calls := update x.calls id (some (.fetching want))
        requests := x.requests ++ [request] }
  | addPage {id : OperationId} {want : Want} {p : NodePage} {pages : List NodePage}
      {result : ResultSet} :
      x.calls id = some (.fetching want) → x.unserved = p :: pages →
      x.shared.result.receive want (.result (.rows p.rows)) = .ok (none, result) →
      Step r x { x with
        shared := { x.shared with result }
        calls := update x.calls id (some (.holding want))
        unserved := pages }
  | endWithPage {id : OperationId} {want : Want} {p : NodePage} {pages : List NodePage}
      {service : Service} {result : ResultSet} :
      x.calls id = some (.fetching want) → x.unserved = p :: pages →
      x.shared.result.receive want (.result (.rows p.rows)) = .ok (some service, result) →
      Step r x { x.finish id service result with unserved := pages }
  | tryTake : Step r x { x with
      shared := (x.shared.tryTake r).2
      taken := x.taken ++ (x.shared.tryTake r).1.toList }

inductive Steps (r : Registry) : Paging → Paging → Prop
  | refl {x : Paging} : Steps r x x
  | tail {x y z : Paging} : Steps r x y → Step r y z → Steps r x z

/-- The states that the result of the first page and its callers come to. -/
def Reachable (r : Registry) (source : PageSource) (chain : Chain) (x : Paging) : Prop :=
  ∃ response s, ResultSet.ofResult (.rows chain.first.rows) response source = .ok s ∧
    Steps r (.new s chain.rest) x

/-- No call waits for a page. -/
def IsIdle (x : Paging) : Prop := ∀ id want, x.calls id ≠ some (.fetching want)

/-- No call is to look at a page that has come. -/
def IsSettled (x : Paging) : Prop := ∀ id want, x.calls id ≠ some (.holding want)

variable {r : Registry} {source : PageSource} {chain : Chain} {x y : Paging} {id : OperationId}
  {want : Want} {rows : List Row} {state : Option Bytes}

structure Accounted (r : Registry) (source : PageSource) (chain : Chain) (x : Paging)
    (rows : List Row) (state : Option Bytes) : Prop where
  shows : x.shared.result.Shows r source (chain.first.columns source.columns?) rows state
  taken : x.taken ++ rows.map .ok ++ (x.unserved.flatMap (·.meant)).map .ok = chain.rows.map .ok
  served : ∃ served, chain.rest = served ++ x.unserved ∧ state = chain.stateAfter served
  linked : NodePage.Linked state x.unserved
  wellFormed : ∀ p, p ∈ x.unserved →
    p.IsWellFormed r (source.columns? <|> some (chain.first.columns source.columns?))
  idle : x.IsIdle →
    x.requests ++ source.requests state x.unserved = source.requests chain.first.next chain.rest
  busy : ∀ id want, x.calls id = some (.fetching want) →
    x.shared.holder = some id ∧ want ≠ .pagingState ∧ ∃ t sent, state = some t ∧
      x.requests = sent ++ [(source.request (some t), source.options.tracing)] ∧
      sent ++ source.requests state x.unserved = source.requests chain.first.next chain.rest
  holding : ∀ id want, x.calls id = some (.holding want) →
    x.shared.holder = some id ∧ want ≠ .pagingState ∧ x.shared.result.exhausted = false
  exhausted : x.shared.result.exhausted = true → state = none ∧ rows = []
  upToDate : x.IsSettled → x.shared.result.exhausted = x.shared.result.cursor.isExhausted

/-! ## Calls and the lock -/

theorem lock_result (s : SharedResult) (id : OperationId) : (s.lock id).result = s.result := by
  unfold SharedResult.lock
  split <;> rfl

theorem lock_holder {s : SharedResult} {id q : OperationId} (h : s.holder = some q) :
    (s.lock id).holder = some q := by
  unfold SharedResult.lock
  rw [h]

theorem unlock_result (s : SharedResult) : s.unlock.result = s.result := by
  unfold SharedResult.unlock
  split <;> rfl

namespace Accounted

/-- While a call that does not wait for a page has the cursor, no call does. -/
theorem idle_of_holder (h : Accounted r source chain x rows state)
    (hholder : x.shared.holder = some id) (hcall : ∀ want, x.calls id ≠ some (.fetching want)) :
    x.IsIdle := by
  intro q want' hq
  obtain ⟨hq', _⟩ := h.busy q want' hq
  cases hholder.symm.trans hq'
  exact hcall want' hq

/-- Nobody but the one that has the cursor has a page to look at. -/
theorem eq_of_holding (h : Accounted r source chain x rows state)
    (hholder : x.shared.holder = some id) {q : OperationId} {want' : Want}
    (hq : x.calls q = some (.holding want')) : q = id := by
  obtain ⟨hq', _⟩ := h.holding q want' hq
  cases hholder.symm.trans hq'
  rfl

/-- After the call that has the cursor ends, no call is under way that needs it. -/
theorem calls_finish (h : Accounted r source chain x rows state)
    (hholder : x.shared.holder = some id) {q : OperationId} {call : Call}
    (hq : update x.calls id none q = some call) :
    (∀ want, call ≠ .fetching want) ∧ ∀ want, call ≠ .holding want := by
  have hne : q ≠ id := by
    rintro rfl
    cases (update_self ..).symm.trans hq
  rw [update_of_ne hne] at hq
  constructor
  · rintro want rfl
    obtain ⟨hq', _⟩ := h.busy q want hq
    cases hholder.symm.trans hq'
    exact hne rfl
  · rintro want rfl
    exact hne (h.eq_of_holding hholder hq)

/-- A call that neither has nor gets anything of the cursor. -/
theorem otherCall (h : Accounted r source chain x rows state) {shared : SharedResult} {call : Call}
    (hresult : shared.result = x.shared.result)
    (hholder : ∀ q, x.shared.holder = some q → shared.holder = some q)
    (hold : ∀ c, x.calls id = some c → c.keeps = false) (hnew : call.keeps = false) :
    Accounted r source chain { x with shared, calls := update x.calls id (some call) }
      rows state := by
  have hback : ∀ q c, c.keeps = true →
      (update x.calls id (some call) q = some c ↔ x.calls q = some c) := by
    intro q c hc
    by_cases hq : q = id
    · subst hq
      rw [update_self]
      constructor
      · rintro ⟨⟩
        cases hnew.symm.trans hc
      · intro heq
        cases (hold c heq).symm.trans hc
    · rw [update_of_ne hq]
  have hfetching := fun q want => hback q (.fetching want) rfl
  have hholding := fun q want => hback q (.holding want) rfl
  refine ⟨hresult ▸ h.shows, h.taken, h.served, h.linked, h.wellFormed, ?idle, ?busy, ?holding,
    hresult ▸ h.exhausted, ?upToDate⟩
  case idle => exact fun hidle => h.idle fun q want hq => hidle q want ((hfetching q want).mpr hq)
  case busy =>
    intro q want hq
    obtain ⟨hq', hrest⟩ := h.busy q want ((hfetching q want).mp hq)
    exact ⟨hholder q hq', hrest⟩
  case holding =>
    intro q want hq
    obtain ⟨hq', hne, hex⟩ := h.holding q want ((hholding q want).mp hq)
    exact ⟨hholder q hq', hne, hresult ▸ hex⟩
  case upToDate =>
    intro hsettled
    rw [hresult]
    exact h.upToDate fun q want hq => hsettled q want ((hholding q want).mpr hq)

/-- The call that has the cursor ends. -/
theorem finish (h : Accounted r source chain x rows state) {service : Service} {result : ResultSet}
    {rest : List Row} {state' : Option Bytes} {pages : List NodePage}
    (hholder : x.shared.holder = some id)
    (hshows : result.Shows r source (chain.first.columns source.columns?) rest state')
    (htaken : rows.map .ok ++ (x.unserved.flatMap (·.meant)).map .ok =
      service.items ++ rest.map .ok ++ (pages.flatMap (·.meant)).map .ok)
    (hserved : ∃ served, chain.rest = served ++ pages ∧ state' = chain.stateAfter served)
    (hlinked : NodePage.Linked state' pages) (hpages : ∀ p, p ∈ pages → p ∈ x.unserved)
    (hrequests : x.requests ++ source.requests state' pages =
      source.requests chain.first.next chain.rest)
    (hexhausted : result.exhausted = result.cursor.isExhausted) :
    Accounted r source chain { x.finish id service result with unserved := pages } rest state' := by
  have hresult : ({ x.shared with result } : SharedResult).unlock.result = result := unlock_result _
  refine ⟨hresult.symm ▸ hshows, ?taken, hserved, hlinked, fun p hp => h.wellFormed p (hpages p hp),
    fun _ => hrequests, ?busy, ?holding, ?exhausted, fun _ => hresult.symm ▸ hexhausted⟩
  case taken =>
    show x.taken ++ service.items ++ rest.map .ok ++ _ = _
    rw [← h.taken, List.append_assoc, List.append_assoc, List.append_assoc, htaken,
      List.append_assoc]
  case busy =>
    intro q want hq
    exact absurd rfl ((h.calls_finish hholder hq).1 want)
  case holding =>
    intro q want hq
    exact absurd rfl ((h.calls_finish hholder hq).2 want)
  case exhausted =>
    intro hex
    refine hshows.isExhausted_iff.mp (hexhausted.symm.trans ?_)
    rw [← hex]
    exact congrArg ResultSet.exhausted hresult.symm

/-- A call that may be served waits for no page. -/
theorem ne_fetching (hcall : x.calls id = some (.locking want) ∨ x.calls id = some (.holding want))
    (want' : Want) : x.calls id ≠ some (.fetching want') := by
  rcases hcall with hcall | hcall
  · rw [hcall]
    exact fun heq => by cases heq
  · rw [hcall]
    exact fun heq => by cases heq

theorem serve (h : Accounted r source chain x rows state) {service : Service} {result : ResultSet}
    (hcall : x.calls id = some (.locking want) ∨ x.calls id = some (.holding want))
    (hholder : x.shared.holder = some id)
    (hserve : x.shared.result.serve r want = (.inl service, result)) :
    ∃ rest, Accounted r source chain (x.finish id service result) rest state := by
  obtain ⟨rest, hshows, hrows, hexhausted, _⟩ := h.shows.serve_inl hserve
  refine ⟨rest, h.finish hholder hshows (by rw [hrows]) h.served h.linked (fun _ hp => hp)
    (h.idle (h.idle_of_holder hholder (ne_fetching hcall))) ?_⟩
  rcases hexhausted with hfresh | ⟨rfl, rfl⟩
  · exact hfresh
  · refine h.upToDate fun q want' hq => ?_
    obtain rfl := h.eq_of_holding hholder hq
    rcases hcall with hcall | hcall
    · cases hcall.symm.trans hq
    · exact (h.holding q _ hcall).2.1 rfl

theorem fetch (h : Accounted r source chain x rows state) {request : Request × Bool}
    {result : ResultSet}
    (hcall : x.calls id = some (.locking want) ∨ x.calls id = some (.holding want))
    (hholder : x.shared.holder = some id)
    (hserve : x.shared.result.serve r want = (.inr request, result)) :
    Accounted r source chain { x with
      shared := { x.shared with result }
      calls := update x.calls id (some (.fetching want))
      requests := x.requests ++ [request] } rows state := by
  obtain ⟨t, rfl, rfl, hshows, hexhausted, hwant⟩ := h.shows.serve_inr hserve
  have hidle := h.idle (h.idle_of_holder hholder (ne_fetching hcall))
  have hopen : result.exhausted = false := by
    rw [hexhausted]
    refine Bool.eq_false_iff.mpr fun hex => ?_
    cases (h.exhausted hex).1
  refine ⟨hshows, h.taken, h.served, h.linked, h.wellFormed, ?idle, ?busy, ?holding, ?exhausted,
    ?upToDate⟩
  case idle => exact fun hf => absurd (update_self ..) (hf id want)
  case busy =>
    intro q want' hq
    by_cases heq : q = id
    · subst heq
      cases (update_self ..).symm.trans hq
      exact ⟨hholder, hwant, t, x.requests, rfl, rfl, hidle⟩
    · have hq' := (update_of_ne heq ..).symm.trans hq
      cases hholder.symm.trans (h.busy q want' hq').1
      exact absurd rfl heq
  case holding =>
    intro q want' hq
    by_cases heq : q = id
    · subst heq
      cases (update_self ..).symm.trans hq
    · exact absurd (h.eq_of_holding hholder ((update_of_ne heq ..).symm.trans hq)) heq
  case exhausted =>
    intro hex
    cases hopen.symm.trans hex
  case upToDate =>
    intro _
    refine hopen.trans (Bool.eq_false_iff.mpr fun hex => ?_).symm
    cases (hshows.isExhausted_iff.mp hex).1

theorem exists_page (h : Accounted r source chain x rows state)
    (hcall : x.calls id = some (.fetching want)) : ∃ p pages, x.unserved = p :: pages := by
  obtain ⟨_, _, t, _, rfl, _⟩ := h.busy id want hcall
  have hlinked := h.linked
  cases hunserved : x.unserved with
  | nil =>
    rw [hunserved] at hlinked
    exact hlinked.elim
  | cons p pages => exact ⟨p, pages, rfl⟩

/-- What is known when a page comes. -/
theorem page_of_fetching (h : Accounted r source chain x rows state) {p : NodePage}
    {pages : List NodePage} (hcall : x.calls id = some (.fetching want))
    (hunserved : x.unserved = p :: pages) :
    x.shared.holder = some id ∧ x.shared.result.exhausted = false ∧
      NodePage.Linked p.next pages ∧
      (∃ served, chain.rest = served ++ pages ∧ p.next = chain.stateAfter served) ∧
      x.requests ++ source.requests p.next pages =
        source.requests chain.first.next chain.rest := by
  obtain ⟨hholder, _, t, sent, rfl, hrequests, hsent⟩ := h.busy id want hcall
  have hlinked := h.linked
  rw [hunserved] at hsent hlinked
  refine ⟨hholder, ?_, hlinked, ?_, ?_⟩
  · refine Bool.eq_false_iff.mpr fun hex => ?_
    cases (h.exhausted hex).1
  · obtain ⟨served, hrest, _⟩ := h.served
    refine ⟨served ++ [p], ?_, ?_⟩
    · rw [hrest, hunserved, List.append_assoc]
      rfl
    · exact congrArg NodePage.next (List.getLast_concat (a := p) (l := chain.first :: served)).symm
  · rw [hrequests, List.append_assoc]
    exact hsent

/-- Only pages of the chain are asked for, each after those before it. -/
theorem requests_initial (h : Accounted r source chain x rows state) :
    x.requests <+: source.requests chain.first.next chain.rest := by
  by_cases hidle : x.IsIdle
  · exact ⟨_, h.idle hidle⟩
  · obtain ⟨id, want, hcall⟩ : ∃ id want, x.calls id = some (.fetching want) := by
      simpa [IsIdle] using hidle
    obtain ⟨p, pages, hunserved⟩ := h.exists_page hcall
    exact ⟨_, (h.page_of_fetching hcall hunserved).2.2.2.2⟩

theorem addPage (h : Accounted r source chain x rows state) {p : NodePage} {pages : List NodePage}
    {result : ResultSet} (hcall : x.calls id = some (.fetching want))
    (hunserved : x.unserved = p :: pages)
    (hreceive : x.shared.result.receive want (.result (.rows p.rows)) = .ok (none, result)) :
    Accounted r source chain { x with
      shared := { x.shared with result }
      calls := update x.calls id (some (.holding want))
      unserved := pages } (rows ++ p.meant) p.next := by
  obtain ⟨hholder, hopen, hlinked, hserved, hrequests⟩ := h.page_of_fetching hcall hunserved
  obtain ⟨added, hshows, hexhausted, hadded⟩ :=
    h.shows.receive want (h.wellFormed p (hunserved ▸ List.mem_cons_self ..))
  obtain rfl : result = added := by
    rw [hadded] at hreceive
    split at hreceive
    · cases hreceive
    · cases hreceive
      rfl
  have hopen' : result.exhausted = false := hexhausted.trans hopen
  refine ⟨hshows, ?taken, hserved, hlinked,
    fun p' hp' => h.wellFormed p' (hunserved ▸ List.mem_cons_of_mem p hp'), fun _ => hrequests,
    ?busy, ?holding, ?exhausted, ?upToDate⟩
  case taken =>
    rw [← h.taken, hunserved]
    simp
  case busy =>
    intro q want' hq
    have hne : q ≠ id := by
      rintro rfl
      cases (update_self ..).symm.trans hq
    have hq' := (update_of_ne hne ..).symm.trans hq
    cases hholder.symm.trans (h.busy q want' hq').1
    exact absurd rfl hne
  case holding =>
    intro q want' hq
    by_cases heq : q = id
    · subst heq
      cases (update_self ..).symm.trans hq
      exact ⟨hholder, (h.busy q _ hcall).2.1, hopen'⟩
    · exact absurd (h.eq_of_holding hholder ((update_of_ne heq ..).symm.trans hq)) heq
  case exhausted =>
    intro hex
    cases hopen'.symm.trans hex
  case upToDate => exact fun hf => absurd (update_self ..) (hf id want)

theorem endWithPage (h : Accounted r source chain x rows state) {p : NodePage}
    {pages : List NodePage} {service : Service} {result : ResultSet}
    (hcall : x.calls id = some (.fetching want)) (hunserved : x.unserved = p :: pages)
    (hreceive : x.shared.result.receive want (.result (.rows p.rows)) =
      .ok (some service, result)) :
    Accounted r source chain { x.finish id service result with unserved := pages }
      (rows ++ p.meant) p.next := by
  obtain ⟨hholder, _, hlinked, hserved, hrequests⟩ := h.page_of_fetching hcall hunserved
  obtain ⟨added, hshows, _, hadded⟩ :=
    h.shows.receive want (h.wellFormed p (hunserved ▸ List.mem_cons_self ..))
  rw [hadded] at hreceive
  split at hreceive
  · cases hreceive
    refine h.finish hholder hshows.refresh ?_ hserved hlinked
      (fun p' hp' => hunserved ▸ List.mem_cons_of_mem p hp') hrequests rfl
    rw [hunserved]
    simp [Service.items]
  · cases hreceive

theorem tryTake (h : Accounted r source chain x rows state) :
    ∃ rest, Accounted r source chain { x with
      shared := (x.shared.tryTake r).2
      taken := x.taken ++ (x.shared.tryTake r).1.toList } rest state := by
  unfold SharedResult.tryTake
  split
  · refine ⟨rows, ?_⟩
    rw [Option.toList_none, List.append_nil]
    exact h
  · rename_i hfree
    obtain ⟨rest, hshows, hexhausted, hrows⟩ := h.shows.tryTake
    have hidle : ∀ q want, x.calls q ≠ some (.fetching want) := by
      intro q want hq
      rw [(h.busy q want hq).1] at hfree
      exact hfree rfl
    refine ⟨rest, hshows, ?taken, h.served, h.linked, h.wellFormed, h.idle, ?busy, ?holding,
      ?exhausted, fun _ => hexhausted⟩
    case taken =>
      rw [← h.taken, hrows]
      simp
    case busy => exact fun q want hq => absurd hq (hidle q want)
    case holding =>
      intro q want hq
      rw [(h.holding q want hq).1] at hfree
      exact absurd rfl hfree
    case exhausted =>
      intro hex
      exact hshows.isExhausted_iff.mp (hexhausted.symm.trans hex)

end Accounted

/-- Every step keeps the account of the rows and of the requests. -/
theorem Step.accounted (hstep : Step r x y) (h : Accounted r source chain x rows state) :
    ∃ rows' state', Accounted r source chain y rows' state' := by
  cases hstep with
  | @enter id want hfree hopen =>
    refine ⟨rows, state, h.otherCall rfl (fun _ hq => hq) (fun c hc => ?_) rfl⟩
    cases hfree.symm.trans hc
  | turnAway =>
    exact ⟨rows, state, h.shows, h.taken, h.served, h.linked, h.wellFormed, h.idle, h.busy,
      h.holding, h.exhausted, h.upToDate⟩
  | @lock id want hcall =>
    refine ⟨rows, state,
      h.otherCall (lock_result ..) (fun _ hq => lock_holder hq) (fun c hc => ?_) rfl⟩
    cases hcall.symm.trans hc
    rfl
  | serve hcall hholder hserve =>
    obtain ⟨rest, hrest⟩ := h.serve hcall hholder hserve
    exact ⟨rest, state, hrest⟩
  | fetch hcall hholder hserve => exact ⟨rows, state, h.fetch hcall hholder hserve⟩
  | addPage hcall hunserved hreceive => exact ⟨_, _, h.addPage hcall hunserved hreceive⟩
  | endWithPage hcall hunserved hreceive => exact ⟨_, _, h.endWithPage hcall hunserved hreceive⟩
  | tryTake =>
    obtain ⟨rest, hrest⟩ := h.tryTake
    exact ⟨rest, state, hrest⟩

theorem Steps.accounted (hsteps : Steps r x y) (h : Accounted r source chain x rows state) :
    ∃ rows' state', Accounted r source chain y rows' state' := by
  induction hsteps with
  | refl => exact ⟨rows, state, h⟩
  | tail _ hstep ih =>
    obtain ⟨_, _, hy⟩ := ih
    exact hstep.accounted hy

theorem Reachable.accounted (h : Reachable r source chain x)
    (hchain : chain.IsWellFormed r source) :
    ∃ rows state, Accounted r source chain x rows state := by
  obtain ⟨response, s, hs, hsteps⟩ := h
  obtain ⟨s', hs', hshows, hexhausted⟩ := ResultSet.shows_ofResult hchain.first
  cases hs.symm.trans hs'
  refine hsteps.accounted ⟨hshows, ?taken, ⟨[], rfl, rfl⟩, hchain.linked, hchain.rest, fun _ => rfl,
    fun _ _ hq => (by cases hq), fun _ _ hq => (by cases hq), ?exhausted, fun _ => hexhausted⟩
  case taken =>
    show [] ++ _ ++ _ = _
    rw [List.nil_append, ← List.map_append]
    rfl
  case exhausted => exact fun hex => hshows.isExhausted_iff.mp (hexhausted.symm.trans hex)

/-! ## Exhausted results -/

/-- The second state differs from the first only by calls that got nothing. -/
structure NothingMore (x y : Paging) : Prop where
  exhausted : y.shared.result.exhausted = true
  requests : y.requests = x.requests
  taken : y.taken = x.taken
  ended : ∃ more, y.ended = x.ended ++ more ∧ ∀ service, service ∈ more → service.isEmpty = true

theorem Step.nothingMore (hstep : Step r x y) (h : Accounted r source chain x rows state)
    (hex : x.shared.result.exhausted = true) : NothingMore x y := by
  obtain ⟨rfl, rfl⟩ := h.exhausted hex
  have hnone : ∃ more, x.ended = x.ended ++ more ∧
      ∀ service, service ∈ more → service.isEmpty = true :=
    ⟨[], (List.append_nil _).symm, fun _ hf => by cases hf⟩
  cases hstep with
  | enter => exact ⟨hex, rfl, rfl, hnone⟩
  | turnAway =>
    refine ⟨hex, rfl, rfl, [.row none], rfl, fun service hservice => ?_⟩
    rw [List.mem_singleton.mp hservice]
    rfl
  | lock =>
    refine ⟨?_, rfl, rfl, hnone⟩
    rw [lock_result]
    exact hex
  | @serve id want service result hcall hholder hserve =>
    obtain ⟨rest, hshows, hrows, hfresh, hempty⟩ := h.shows.serve_inl hserve
    obtain ⟨hitems, hrest⟩ := List.append_eq_nil_iff.mp hrows.symm
    obtain rfl := List.map_eq_nil_iff.mp hrest
    refine ⟨?_, rfl, ?_, [service], rfl, fun service' hservice => ?_⟩
    · show ({ x.shared with result } : SharedResult).unlock.result.exhausted = true
      rw [unlock_result]
      rcases hfresh with hfresh | ⟨_, rfl⟩
      · exact hfresh.trans (hshows.isExhausted_iff.mpr ⟨rfl, rfl⟩)
      · exact hex
    · show x.taken ++ service.items = x.taken
      rw [hitems, List.append_nil]
    · rw [List.mem_singleton.mp hservice]
      exact hempty rfl rfl
  | fetch _ _ hserve =>
    obtain ⟨t, hf, _⟩ := h.shows.serve_inr hserve
    cases hf
  | addPage hcall =>
    obtain ⟨_, _, t, _, hf, _⟩ := h.busy _ _ hcall
    cases hf
  | endWithPage hcall =>
    obtain ⟨_, _, t, _, hf, _⟩ := h.busy _ _ hcall
    cases hf
  | tryTake =>
    have hnew : (x.shared.tryTake r).2.result.exhausted = true ∧
        (x.shared.tryTake r).1.toList = [] := by
      unfold SharedResult.tryTake
      split
      · exact ⟨hex, rfl⟩
      · obtain ⟨rest, hshows, hfresh, hrows⟩ := h.shows.tryTake
        obtain ⟨hitems, hrest⟩ := List.append_eq_nil_iff.mp hrows.symm
        obtain rfl := List.map_eq_nil_iff.mp hrest
        exact ⟨hfresh.trans (hshows.isExhausted_iff.mpr ⟨rfl, rfl⟩), hitems⟩
    refine ⟨hnew.1, rfl, ?_, hnone⟩
    show x.taken ++ (x.shared.tryTake r).1.toList = x.taken
    rw [hnew.2, List.append_nil]

theorem Steps.nothingMore (hsteps : Steps r x y) (h : Accounted r source chain x rows state)
    (hex : x.shared.result.exhausted = true) : NothingMore x y := by
  induction hsteps with
  | refl => exact ⟨hex, rfl, rfl, [], (List.append_nil _).symm, fun _ hf => by cases hf⟩
  | tail hsteps hstep ih =>
    obtain ⟨_, _, hy⟩ := hsteps.accounted h
    obtain ⟨hexhausted, hrequests, htaken, more, hended, hmore⟩ := ih
    obtain ⟨hexhausted', hrequests', htaken', more', hended', hmore'⟩ :=
      hstep.nothingMore hy hexhausted
    refine ⟨hexhausted', hrequests'.trans hrequests, htaken'.trans htaken, more ++ more', ?_, ?_⟩
    · rw [hended', hended, List.append_assoc]
    · intro service hservice
      rcases List.mem_append.mp hservice with hservice | hservice
      · exact hmore service hservice
      · exact hmore' service hservice

/-! ## Runs -/

/-- In every run of calls over a chain of well-formed pages: the rows taken, the rows that have come
and the rows of the pages from the paging state on are the rows of the chain; each page is asked for
once at most, in turn, by the paging state of the one before it and otherwise as the statement was;
a page that is asked for comes and is taken in; while nobody has the cursor, the result is exhausted
exactly if it has neither a row nor a paging state; and once it is exhausted it stays so, nothing is
asked for any more, and no call gets a row. -/
theorem rows_taken_once (hchain : chain.IsWellFormed r source) (h : Reachable r source chain x) :
    (∃ served, chain.rest = served ++ x.unserved ∧
      x.shared.result.cursor.pagingState = chain.stateAfter served) ∧
    x.taken ++ x.shared.result.cursor.buffered r ++ (x.unserved.flatMap (·.meant)).map .ok =
      chain.rows.map .ok ∧
    (∃ k, List.Forall₂ source.Sends (chain.states.take k) x.requests) ∧
    (∀ id want, x.calls id = some (.fetching want) → ∃ t sent p pages added,
      x.shared.result.cursor.pagingState = some t ∧ x.requests.getLast? = some sent ∧
      source.Sends t sent ∧ x.unserved = p :: pages ∧
      x.shared.result.receive want (.result (.rows p.rows)) = .ok added) ∧
    (x.shared.holder = none → (x.shared.result.exhausted = true ↔
      x.shared.result.cursor.pagingState = none ∧ x.shared.result.cursor.buffered r = [])) ∧
    (x.shared.result.exhausted = true → ∀ y, Steps r x y → NothingMore x y) := by
  obtain ⟨rows, state, hx⟩ := h.accounted hchain
  have hbuffered := Cursor.buffered_eq hx.shows.rows
  refine ⟨?served, ?taken, ?requests, ?fetching, ?exhausted,
    fun hex y hsteps => hsteps.nothingMore hx hex⟩
  case served =>
    obtain ⟨served, hrest, hstate⟩ := hx.served
    exact ⟨served, hrest, hx.shows.state.trans hstate⟩
  case taken =>
    rw [hbuffered]
    exact hx.taken
  case requests =>
    have hinitial := hx.requests_initial
    rw [Chain.requests_eq hchain, List.prefix_iff_eq_take, ← List.map_take] at hinitial
    rw [hinitial]
    exact ⟨_, List.forall₂_map_right_iff.mpr
      (List.forall₂_same.mpr fun t _ => source.sends_request t)⟩
  case fetching =>
    intro id want hcall
    obtain ⟨p, pages, hunserved⟩ := hx.exists_page hcall
    obtain ⟨_, _, t, sent, rfl, hrequests, _⟩ := hx.busy id want hcall
    obtain ⟨added, _, _, hadded⟩ :=
      hx.shows.receive want (hx.wellFormed p (hunserved ▸ List.mem_cons_self ..))
    refine ⟨t, _, p, pages, _, hx.shows.state, ?_, source.sends_request t, hunserved, hadded⟩
    rw [hrequests, List.getLast?_concat]
  case exhausted =>
    intro hfree
    have hsettled : x.IsSettled := by
      intro q want hq
      cases hfree.symm.trans (hx.holding q want hq).1
    rw [hx.upToDate hsettled, hx.shows.isExhausted_iff, hx.shows.state, hbuffered,
      List.map_eq_nil_iff]

def intColumns : Columns := [⟨"shop", "item", "n", 0, .native .int⟩]

def pageOfInts (next : Option Bytes) (ns : List Int32) : NodePage where
  rows := {
    metadata := ⟨1, next, some intColumns⟩
    count := ns.length
    content := ns.flatMap fun n => [0, 0, 0, 4] ++ Bytes.ofInt32 n }
  meant := ns.map fun n => [some (.int n)]

def intSource : PageSource := ⟨.text "SELECT n FROM item", .empty, {}⟩

/-- Two pages with a row each, and one without rows between them. -/
def intChain : Chain :=
  ⟨pageOfInts (some [1]) [7], [pageOfInts (some [2]) [], pageOfInts none [8]]⟩

theorem intChain_isWellFormed : intChain.IsWellFormed .standard intSource := by
  refine ⟨⟨rfl, .inl rfl, .cons rfl .nil⟩, fun p hp => ?_, trivial⟩
  rcases List.mem_cons.mp hp with rfl | hp
  · exact ⟨rfl, .inl rfl, .nil⟩
  · obtain rfl := List.mem_singleton.mp hp
    exact ⟨rfl, .inl rfl, .cons rfl .nil⟩

def intResult : ResultSet where
  kind := .rows
  tracingId := none
  warnings := []
  columns := some intColumns
  autoPage := true
  cursor := ⟨[⟨intChain.first.rows.content, 1, intColumns⟩], some [1], some intSource⟩
  exhausted := false

/-- Two calls for rows, and one for a page that has to wait for the second of them. -/
theorem rows_taken_once_of_three_calls : ∃ x, Reachable .standard intSource intChain x ∧
    x.taken = [.ok [some (.int 7)], .ok [some (.int 8)]] ∧ x.requests.length = 2 ∧
    (∃ k, List.Forall₂ intSource.Sends (intChain.states.take k) x.requests) ∧
    x.taken ++ x.shared.result.cursor.buffered .standard ++
      (x.unserved.flatMap (·.meant)).map .ok = intChain.rows.map .ok := by
  have h : Steps .standard (.new intResult intChain.rest) (.new intResult intChain.rest) := .refl
  have h := h.tail (@Step.enter _ _ "a" .row rfl fun _ => rfl)
  have h := h.tail (@Step.enter _ _ "b" .row rfl fun _ => rfl)
  have h := h.tail (@Step.enter _ _ "c" .page rfl fun hf => by cases hf)
  have h := h.tail (@Step.lock _ _ "a" _ rfl)
  have h := h.tail (@Step.lock _ _ "b" _ rfl)
  have h := h.tail (@Step.serve _ _ "a" _ _ _ (.inl rfl) rfl rfl)
  have h := h.tail (@Step.fetch _ _ "b" _ _ _ (.inl rfl) rfl rfl)
  have h := h.tail (@Step.lock _ _ "c" _ rfl)
  have h := h.tail (@Step.addPage _ _ "b" _ _ _ _ rfl rfl rfl)
  have h := h.tail (@Step.fetch _ _ "b" _ _ _ (.inr rfl) rfl rfl)
  have h := h.tail (@Step.addPage _ _ "b" _ _ _ _ rfl rfl rfl)
  have h := h.tail (@Step.serve _ _ "b" _ _ _ (.inr rfl) rfl rfl)
  have h := h.tail (@Step.serve _ _ "c" _ _ _ (.inl rfl) rfl rfl)
  have hreach : Reachable .standard intSource intChain _ :=
    ⟨⟨none, [], [], .ready⟩, intResult, rfl, h⟩
  obtain ⟨_, htaken, hrequests, _⟩ := rows_taken_once intChain_isWellFormed hreach
  exact ⟨_, hreach, rfl, rfl, hrequests, htaken⟩

end Paging

end CqlClient
