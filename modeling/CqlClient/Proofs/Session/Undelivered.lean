import CqlClient.Proofs.Outcome
import CqlClient.Proofs.Session.ResultSet

/-!
# What a result still hands out

`Page.items` are the rows of a page as takes will hand them out, up to a row that cannot be read or
is followed by bytes that belong to none. Nothing is asked of the bytes of a page here.

* `NodePage.IsWellFormed.items`: a well-formed page hands out its rows, and nothing else;
* `ResultSet.serve_inl`, `ResultSet.tryTake_cases`: the holder of the cursor gets the first item or
  nothing; a fault ends the result;
* `ResultSet.serve_inr`: asking for a page leaves what the result has, and asks for the page of its
  paging state;
* `ResultSet.receive_ok`: only rows that can be read become a page, and they come last;
* `ResultSet.IsOver.serve`, `ResultSet.IsOver.tryTake`: a result that has ended hands out nothing
  and asks for nothing.
-/

namespace CqlClient

/-! ## Pages -/

/-- What takes hand out of a page with that many rows left. -/
def Page.itemsOf (r : Registry) (columns : Columns) :
    Nat → Bytes → List (Except ExecutionFault Row)
  | 0, _ => []
  | remaining + 1, content =>
    match Row.read r columns content with
    | .error fault _ => [.error (.row fault)]
    | .ok row rest =>
      if remaining = 0 && !rest.isEmpty then
        [.error (.call (.violation (.trailingBytes rest.length)))]
      else .ok row :: itemsOf r columns remaining rest

def Page.items (r : Registry) (page : Page) : List (Except ExecutionFault Row) :=
  itemsOf r page.columns page.remaining page.content

variable {r : Registry}

theorem Page.items_of_take_none {page : Page} (h : page.take r = none) : page.items r = [] := by
  unfold Page.take at h
  unfold Page.items
  cases hremaining : page.remaining with
  | zero => rfl
  | succ remaining =>
    simp only [hremaining] at h
    cases hread : Row.read r page.columns page.content with
    | error fault rest =>
      simp only [hread] at h
      cases h
    | ok row rest =>
      simp only [hread] at h
      split at h <;> cases h

theorem Page.items_of_take {page next : Page} {item : Except ExecutionFault Row}
    (h : page.take r = some (item, next)) : page.items r = item :: next.items r := by
  unfold Page.take at h
  unfold Page.items
  cases hremaining : page.remaining with
  | zero =>
    simp only [hremaining] at h
    cases h
  | succ remaining =>
    simp only [hremaining] at h
    rw [itemsOf]
    cases hread : Row.read r page.columns page.content with
    | error fault rest =>
      simp only [hread] at h ⊢
      cases h
      rfl
    | ok row rest =>
      simp only [hread] at h ⊢
      by_cases htrailing : (decide (remaining = 0) && !rest.isEmpty) = true
      · rw [if_pos htrailing] at h ⊢
        cases h
        rw [Bool.and_eq_true, decide_eq_true_eq] at htrailing
        simp only [htrailing.1]
        rfl
      · rw [if_neg htrailing] at h ⊢
        cases h
        rfl

/-- A page that holds rows hands out these rows. -/
theorem Page.Holds.items {page : Page} {rows : List Row} (h : page.Holds r rows) :
    page.items r = rows.map .ok := by
  induction rows generalizing page with
  | nil => exact Page.items_of_take_none (Page.take_nil h)
  | cons row rows ih =>
    obtain ⟨next, htake, hnext⟩ := Page.take_cons h
    rw [Page.items_of_take htake, ih hnext]
    rfl

/-! ## Cursors -/

namespace Cursor

/-- What takes hand out of the pages that have come. -/
def items (r : Registry) (c : Cursor) : List (Except ExecutionFault Row) :=
  c.pages.flatMap (·.items r)

theorem takeFrom_none {pages rest : List Page} (h : takeFrom r pages = (none, rest)) :
    rest = [] ∧ pages.flatMap (·.items r) = [] := by
  induction pages with
  | nil =>
    cases h
    exact ⟨rfl, rfl⟩
  | cons page pages ih =>
    rw [takeFrom] at h
    split at h
    · cases h
    next hpage =>
      obtain ⟨hrest, hitems⟩ := ih h
      rw [List.flatMap_cons, Page.items_of_take_none hpage, hitems]
      exact ⟨hrest, rfl⟩

theorem takeFrom_some {pages rest : List Page} {item : Except ExecutionFault Row}
    (h : takeFrom r pages = (some item, rest)) :
    pages.flatMap (·.items r) = item :: rest.flatMap (·.items r) := by
  induction pages with
  | nil => cases h
  | cons page pages ih =>
    rw [takeFrom] at h
    rw [List.flatMap_cons]
    split at h
    next item' page' hpage =>
      cases h
      rw [Page.items_of_take hpage]
      rfl
    next hpage =>
      rw [Page.items_of_take_none hpage]
      exact ih h

/-- What a take leaves: all as it was if there was nothing, the other items after a row, and nothing
at all after a fault. -/
theorem take_cases {c c' : Cursor} {item : Option (Except ExecutionFault Row)}
    (h : c.take r = (item, c')) :
    (item = none ∧ c.items r = [] ∧ c' = { c with pages := [] }) ∨
    (∃ row pages, item = some (.ok row) ∧ c' = { c with pages } ∧
      c.items r = .ok row :: c'.items r) ∨
    (∃ fault rest, item = some (.error fault) ∧ c.items r = .error fault :: rest ∧
      c' = { c with pages := [], pagingState := none }) := by
  unfold take at h
  split at h
  next fault rest htake =>
    cases h
    exact .inr (.inr ⟨fault, _, rfl, takeFrom_some htake, rfl⟩)
  next item' pages hfault htake =>
    cases h
    cases item with
    | none =>
      obtain ⟨rfl, hitems⟩ := takeFrom_none htake
      exact .inl ⟨rfl, hitems, rfl⟩
    | some item =>
      cases item with
      | error fault => exact absurd rfl (hfault fault)
      | ok row => exact .inr (.inl ⟨row, pages, rfl, rfl, takeFrom_some htake⟩)

end Cursor

/-! ## Results -/

/-- What the rows that come with a page are taken as. -/
def Rows.items (r : Registry) (fallback : Option Columns) (rows : Rows) :
    List (Except ExecutionFault Row) :=
  match Page.ofRows rows fallback with
  | .ok (page, _) => page.items r
  | .error _ => []

/-- A well-formed page of a node hands out the rows that are meant by it. -/
theorem NodePage.IsWellFormed.items {fallback : Option Columns} {p : NodePage}
    (h : p.IsWellFormed r fallback) : p.rows.items r fallback = p.meant.map .ok := by
  obtain ⟨page, hpage, hholds, _⟩ := h.ofRows
  rw [Rows.items, hpage]
  exact hholds.items

/-- What an operation gets of a result that has ended. -/
def Want.ending : Want → Service
  | row => .row none
  | page => .page false
  | pagingState => .pagingState none

theorem Page.state_of_ofRows {rows : Rows} {fallback : Option Columns} {page : Page}
    {state : Option Bytes} (h : Page.ofRows rows fallback = .ok (page, state)) :
    state = rows.metadata.pagingState := by
  unfold Page.ofRows at h
  split at h
  · cases h
    rfl
  · split at h <;> cases h
    rfl

namespace ResultSet

/-- The columns by which pages are read that come without their own. -/
def fallback (s : ResultSet) : Option Columns :=
  (s.cursor.source.bind (·.columns?)) <|> s.columns

/-- The second result asks for the same pages as the first, and reads them the same way. -/
structure SameSource (s s' : ResultSet) : Prop where
  source : s'.cursor.source = s.cursor.source
  columns : s'.columns = s.columns

theorem SameSource.fallback {s s' : ResultSet} (h : SameSource s s') :
    s'.fallback = s.fallback := by
  unfold ResultSet.fallback
  rw [h.source, h.columns]

/-- The second result differs from the first at most by pages that had nothing left. -/
structure SameRest (r : Registry) (s s' : ResultSet) : Prop extends SameSource s s' where
  items : s'.cursor.items r = s.cursor.items r
  pagingState : s'.cursor.pagingState = s.cursor.pagingState
  exhausted : s'.exhausted = s.exhausted

/-- A result that has ended. -/
structure IsOver (s : ResultSet) : Prop where
  pages : s.cursor.pages = []
  pagingState : s.cursor.pagingState = none
  exhausted : s.exhausted = true

variable {s s' s'' : ResultSet} {want : Want}

theorem SameRest.refl (s : ResultSet) : SameRest r s s := ⟨⟨rfl, rfl⟩, rfl, rfl, rfl⟩

/-- What whoever has the cursor meets: a row, a fault that ends the result, or nothing. -/
inductive Take (r : Registry) (s s' : ResultSet) : List (Except ExecutionFault Row) → Prop
  | row {row : Row} : s.cursor.items r = .ok row :: s'.cursor.items r →
      s'.cursor.pagingState = s.cursor.pagingState → SameSource s s' → Take r s s' [.ok row]
  | fault {fault : ExecutionFault} {rest : List (Except ExecutionFault Row)} :
      s.cursor.items r = .error fault :: rest → s'.IsOver → SameSource s s' →
      Take r s s' [.error fault]
  | nothing : s'.cursor.items r = s.cursor.items r →
      s'.cursor.pagingState = s.cursor.pagingState → SameSource s s' → Take r s s' []

/-- Taking from the pages that have come, and looking whether anything is left. -/
theorem take_refresh {item : Option (Except ExecutionFault Row)} {cursor : Cursor}
    (h : s.cursor.take r = (item, cursor)) :
    Take r s { s with cursor }.refresh item.toList := by
  rcases Cursor.take_cases h with ⟨rfl, hitems, rfl⟩ | ⟨row, pages, rfl, rfl, hitems⟩ |
    ⟨fault, rest, rfl, hitems, rfl⟩
  · exact .nothing hitems.symm rfl ⟨rfl, rfl⟩
  · exact .row hitems rfl ⟨rfl, rfl⟩
  · exact .fault hitems ⟨rfl, rfl, rfl⟩ ⟨rfl, rfl⟩

theorem tryTake_cases : Take r s (s.tryTake r).2 (s.tryTake r).1.toList := take_refresh rfl

theorem advance_item {item : Option (Except ExecutionFault Row)}
    (h : s.advance r = (.item item, s')) : Take r s s' item.toList := by
  unfold advance at h
  split at h
  next row cursor htake =>
    cases h
    exact take_refresh htake
  next cursor htake =>
    have hnone := take_refresh htake
    simp only at h
    split at h
    · split at h <;> cases h
      exact hnone
    · cases h
      exact hnone

/-- The holder is served from what has come. -/
theorem serve_inl {service : Service} (h : s.serve r want = (.inl service, s')) :
    Take r s s' service.items := by
  unfold serve at h
  split at h
  · split at h <;> cases h
    next hadvance => exact advance_item hadvance
  · split at h <;> cases h
    exact .nothing rfl rfl ⟨rfl, rfl⟩
  · cases h
    exact .nothing rfl rfl ⟨rfl, rfl⟩

/-- A result that wants a page asks for the one that its paging state stands for. -/
def Asks (s : ResultSet) (request : Request × Bool) : Prop :=
  ∃ source t, s.cursor.source = some source ∧ s.cursor.pagingState = some t ∧
    request = (source.request (some t), source.options.tracing)

theorem Asks.of_same {request : Request × Bool} (h : s.Asks request) (hsource : SameSource s s')
    (hstate : s'.cursor.pagingState = s.cursor.pagingState) : s'.Asks request := by
  obtain ⟨source, t, horigin, ht, hrequest⟩ := h
  exact ⟨source, t, hsource.source.trans horigin, hstate.trans ht, hrequest⟩

theorem asks_of_nextPage? {request : Request × Bool}
    (h : s.cursor.nextPage? = some request) : s.Asks request := by
  unfold Cursor.nextPage? at h
  split at h
  next source t hsource hstate =>
    cases h
    exact ⟨source, t, hsource, hstate, rfl⟩
  · cases h

theorem advance_page {request : Request} {tracing : Bool}
    (h : s.advance r = (.page request tracing, s')) :
    SameRest r s s' ∧ s.Asks (request, tracing) := by
  unfold advance at h
  split at h
  · cases h
  next cursor htake =>
    rcases Cursor.take_cases htake with ⟨_, hitems, rfl⟩ | ⟨_, _, hf, _⟩ | ⟨_, _, hf, _⟩
    · simp only at h
      split at h
      next hnext =>
        split at h <;> cases h
        exact ⟨⟨⟨rfl, rfl⟩, hitems.symm, rfl, rfl⟩, asks_of_nextPage? hnext⟩
      · cases h
    · cases hf
    · cases hf

theorem serve_inr {request : Request × Bool} (h : s.serve r want = (.inr request, s')) :
    SameRest r s s' ∧ s.Asks request := by
  unfold serve at h
  split at h
  · split at h <;> cases h
    next hadvance => exact advance_page hadvance
  · split at h <;> cases h
    next hnext => exact ⟨.refl s, asks_of_nextPage? hnext⟩
  · cases h

theorem addPage_ok {body : ResponseBody} (h : s.addPage body = .ok s') :
    ∃ rows page, body = .result (.rows rows) ∧
      Page.ofRows rows s.fallback = .ok (page, rows.metadata.pagingState) ∧
      s' = { s with cursor := s.cursor.push page rows.metadata.pagingState } := by
  unfold addPage at h
  split at h
  next rows =>
    obtain ⟨⟨page, state⟩, hpage, hs⟩ := bind_eq_ok.mp h
    obtain rfl := Page.state_of_ofRows hpage
    cases hs
    exact ⟨rows, page, rfl, hpage, rfl⟩
  · cases h
  · cases h

/-- A response becomes a page if it holds rows that can be read; they come after what is there. -/
theorem receive_ok {body : ResponseBody} {service : Option Service}
    (h : s.receive want body = .ok (service, s')) :
    ∃ rows, body = .result (.rows rows) ∧
      s'.cursor.items r = s.cursor.items r ++ rows.items r s.fallback ∧
      s'.cursor.pagingState = rows.metadata.pagingState ∧ SameSource s s' := by
  unfold receive at h
  obtain ⟨added, hadd, hs⟩ := bind_eq_ok.mp h
  obtain ⟨rows, page, hbody, hpage, rfl⟩ := addPage_ok hadd
  have hitems : (s.cursor.push page rows.metadata.pagingState).items r =
      s.cursor.items r ++ rows.items r s.fallback := by
    rw [Rows.items, hpage]
    simp [Cursor.items, Cursor.push]
  refine ⟨rows, hbody, ?_⟩
  split at hs
  · cases hs
    exact ⟨hitems, rfl, rfl, rfl⟩
  · cases hs
    exact ⟨hitems, rfl, rfl, rfl⟩

/-! ## Results that have ended -/

namespace IsOver

theorem refresh (h : s.IsOver) : s.refresh.IsOver := by
  refine ⟨h.pages, h.pagingState, ?_⟩
  simp [ResultSet.refresh, Cursor.isExhausted, h.pages, h.pagingState]

theorem not_asks (h : s.IsOver) (request : Request × Bool) : ¬ s.Asks request := by
  rintro ⟨_, t, _, hstate, _⟩
  cases h.pagingState.symm.trans hstate

theorem cursor_take (h : s.IsOver) : s.cursor.take r = (none, s.cursor) := by
  rw [Cursor.take, h.pages, Cursor.takeFrom, ← h.pages]

theorem nextPage? (h : s.IsOver) : s.cursor.nextPage? = none := by
  rw [Cursor.nextPage?, h.pagingState]
  cases s.cursor.source <;> rfl

theorem tryTake (h : s.IsOver) : (s.tryTake r).1 = none ∧ (s.tryTake r).2.IsOver := by
  rw [ResultSet.tryTake, h.cursor_take]
  exact ⟨rfl, h.refresh⟩

theorem serve (h : s.IsOver) (want : Want) :
    ∃ s', s.serve r want = (.inl want.ending, s') ∧ s'.IsOver := by
  cases want with
  | row =>
    refine ⟨s.refresh, ?_, h.refresh⟩
    simp only [ResultSet.serve, advance, h.cursor_take, h.nextPage?]
    rfl
  | page =>
    refine ⟨s.refresh, ?_, h.refresh⟩
    simp only [ResultSet.serve, h.nextPage?]
    rfl
  | pagingState =>
    refine ⟨s, ?_, h⟩
    rw [ResultSet.serve, h.pagingState]
    rfl

end IsOver

end ResultSet

end CqlClient
