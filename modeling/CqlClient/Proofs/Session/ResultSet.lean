import CqlClient.Session.SharedResult

/-!
# The rows that a result still has

Pages hold bytes and a count of rows. `Row.Fill` and `Page.Holds` say which rows these are, and
`ResultSet.Shows` the same of a result: its rows that have come, the state of its next page, and
what it takes to ask for it.

* `PageSource.Requested`, `PageSource.requested_iff`: what the request of a page is;
* `ResultSet.Shows.serve_inl`, `ResultSet.Shows.serve_inr`: the holder of the cursor takes the first
  row at most, or asks for the page of the paging state;
* `ResultSet.Shows.receive`: a page that comes puts its rows behind the others;
* `Cursor.buffered_eq`: the rows that a result shows are those that its pages are read as.
-/

namespace CqlClient

/-- The bytes are those of the rows, and of nothing else. -/
inductive Row.Fill (r : Registry) (columns : Columns) : Bytes → List Row → Prop
  | nil : Fill r columns [] []
  | cons {content rest : Bytes} {row : Row} {rows : List Row} :
      Row.read r columns content = .ok row rest → Fill r columns rest rows →
      Fill r columns content (row :: rows)

theorem Row.Fill.of_nil {r : Registry} {columns : Columns} {content : Bytes}
    (h : Row.Fill r columns content []) : content = [] := by
  cases h
  rfl

theorem Row.Fill.of_cons {r : Registry} {columns : Columns} {content : Bytes} {row : Row}
    {rows : List Row} (h : Row.Fill r columns content (row :: rows)) :
    ∃ rest, Row.read r columns content = .ok row rest ∧ Row.Fill r columns rest rows := by
  cases h with
  | cons hread hrest => exact ⟨_, hread, hrest⟩

theorem Row.readMany_of_fill {r : Registry} {columns : Columns} {content : Bytes} {rows : List Row}
    (h : Row.Fill r columns content rows) (done : List (Except RowDecodeFault Row)) :
    Row.readMany r columns rows.length content done = (done.reverse ++ rows.map .ok, []) := by
  induction h generalizing done with
  | nil => simp [Row.readMany]
  | cons hread _ ih =>
    rw [List.length_cons, Row.readMany, hread]
    simp [ih]

/-! ## Pages -/

/-- The rows that are left on a page. -/
def Page.Holds (r : Registry) (page : Page) (rows : List Row) : Prop :=
  page.remaining = rows.length ∧ Row.Fill r page.columns page.content rows

theorem Page.take_nil {r : Registry} {page : Page} (h : page.Holds r []) : page.take r = none := by
  rw [Page.take, h.1]
  rfl

theorem Page.take_cons {r : Registry} {page : Page} {row : Row} {rows : List Row}
    (h : page.Holds r (row :: rows)) :
    ∃ page', page.take r = some (.ok row, page') ∧ page'.Holds r rows := by
  obtain ⟨hcount, hfill⟩ := h
  obtain ⟨rest, hread, hrest⟩ := hfill.of_cons
  refine ⟨{ page with content := rest, remaining := rows.length }, ?_, rfl, hrest⟩
  rw [Page.take, hcount, List.length_cons]
  simp only [hread]
  cases rows with
  | nil =>
    obtain rfl := hrest.of_nil
    rfl
  | cons => rfl

/-- The rows that are left on several pages. -/
inductive Page.HoldAll (r : Registry) : List Page → List Row → Prop
  | nil : HoldAll r [] []
  | cons {page : Page} {pages : List Page} {rows rest : List Row} :
      page.Holds r rows → HoldAll r pages rest → HoldAll r (page :: pages) (rows ++ rest)

namespace Page.HoldAll

variable {r : Registry} {pages : List Page} {rows : List Row}

theorem append_page {page : Page} {more : List Row} (h : HoldAll r pages rows)
    (hpage : page.Holds r more) : HoldAll r (pages ++ [page]) (rows ++ more) := by
  induction h with
  | nil => simpa using HoldAll.cons hpage .nil
  | @cons _ _ _ _ hfirst _ ih =>
    rw [List.append_assoc]
    exact .cons hfirst ih

theorem takeFrom_nil (h : HoldAll r pages []) : Cursor.takeFrom r pages = (none, []) := by
  generalize hrows : ([] : List Row) = rows at h
  induction h with
  | nil => rfl
  | cons hpage _ ih =>
    obtain ⟨rfl, rfl⟩ := List.append_eq_nil_iff.mp hrows.symm
    rw [Cursor.takeFrom, Page.take_nil hpage]
    exact ih rfl

theorem takeFrom_cons {row : Row} (h : HoldAll r pages (row :: rows)) :
    ∃ pages', Cursor.takeFrom r pages = (some (.ok row), pages') ∧ HoldAll r pages' rows := by
  generalize hrows : row :: rows = all at h
  induction h with
  | nil => cases hrows
  | @cons page pages first rest hpage hrest ih =>
    cases first with
    | nil =>
      rw [Cursor.takeFrom, Page.take_nil hpage]
      exact ih hrows
    | cons row' first =>
      cases hrows
      obtain ⟨page', htake, hpage'⟩ := Page.take_cons hpage
      refine ⟨page' :: pages, ?_, .cons hpage' hrest⟩
      rw [Cursor.takeFrom, htake]

theorem all_remaining_eq_zero (h : HoldAll r pages rows) :
    pages.all (·.remaining == 0) = rows.isEmpty := by
  induction h with
  | nil => rfl
  | @cons _ _ first rest hpage _ ih =>
    rw [List.all_cons, ih, hpage.1]
    cases first <;> simp

end Page.HoldAll

/-- The rows that have come and are not taken, as they are read. -/
def Cursor.buffered (r : Registry) (c : Cursor) : List (Except ExecutionFault Row) :=
  c.pages.flatMap fun page =>
    (Row.readMany r page.columns page.remaining page.content []).1.map (·.mapError .row)

theorem Cursor.buffered_eq {r : Registry} {c : Cursor} {rows : List Row}
    (h : Page.HoldAll r c.pages rows) : c.buffered r = rows.map .ok := by
  obtain ⟨pages, state, source⟩ := c
  unfold buffered
  simp only at h ⊢
  induction h with
  | nil => rfl
  | cons hpage _ ih =>
    rw [List.flatMap_cons, ih, hpage.1, Row.readMany_of_fill hpage.2]
    rw [List.reverse_nil, List.nil_append, List.map_map, List.map_append]
    rfl

/-! ## Requests -/

namespace PageSource

/-- The parameters are those of the statement: the values that are bound, what the options say, and
the place to go on from, which is that of the options for the first page. -/
structure Carries (source : PageSource) (state : Option Bytes) (p : QueryParameters) : Prop where
  values : p.values = some source.values
  consistency : p.consistency = source.options.consistency
  pageSize : p.pageSize = source.options.pageSize
  pagingState : p.pagingState = state.or source.options.pagingState
  serialConsistency : p.serialConsistency = source.options.serialConsistency
  timestamp : p.timestamp = source.options.timestamp

/-- The request asks for the page of a statement that a paging state stands for: by the text of the
statement, or by the id that it was prepared under. The columns of a page may be left out only if
they are known. -/
inductive Requested (source : PageSource) (state : Option Bytes) : Request → Prop
  | query {cql : String} {p : QueryParameters} (statement : source.statement = .text cql)
    (carries : source.Carries state p) (columns : p.skipMetadata = false) :
    Requested source state (.query cql p)
  | execute {prepared : Prepared} {p : QueryParameters}
    (statement : source.statement = .prepared prepared) (carries : source.Carries state p)
    (columns : p.skipMetadata = true ↔
      source.options.skipMetadata = true ∧ ∃ columns, prepared.result = some columns) :
    Requested source state (.execute prepared.id p)

theorem carries_parameters (source : PageSource) (state : Option Bytes) (skipMetadata : Bool) :
    source.Carries state (source.options.parameters source.values state skipMetadata) where
  values := rfl
  consistency := rfl
  pageSize := rfl
  pagingState := by cases state <;> rfl
  serialConsistency := rfl
  timestamp := rfl

theorem Carries.eq {source : PageSource} {state : Option Bytes} {p : QueryParameters}
    (h : source.Carries state p) :
    p = source.options.parameters source.values state p.skipMetadata := by
  obtain ⟨consistency, values, skipMetadata, pageSize, pagingState, serial, timestamp⟩ := p
  obtain ⟨rfl, rfl, rfl, rfl, rfl, rfl⟩ := h
  cases state <;> rfl

theorem requested_request (source : PageSource) (state : Option Bytes) :
    source.Requested state (source.request state) := by
  rw [request]
  cases hstatement : source.statement with
  | text cql => exact .query hstatement (source.carries_parameters state false) rfl
  | prepared p =>
    refine .execute hstatement (source.carries_parameters state _) ?_
    show (source.options.skipMetadata && p.result.isSome) = true ↔ _
    rw [Bool.and_eq_true, Option.isSome_iff_exists]

/-- There is one request of a page. -/
theorem requested_iff {source : PageSource} {state : Option Bytes} {r : Request} :
    source.Requested state r ↔ r = source.request state := by
  constructor
  · intro h
    rw [request]
    cases h with
    | query hstatement hcarries hcolumns =>
      rw [hstatement, hcarries.eq, hcolumns]
    | @execute prepared p hstatement hcarries hcolumns =>
      have hskip : p.skipMetadata = (source.options.skipMetadata && prepared.result.isSome) := by
        rw [Bool.eq_iff_iff, hcolumns, Bool.and_eq_true, Option.isSome_iff_exists]
      rw [hstatement, hcarries.eq, hskip]
  · rintro rfl
    exact source.requested_request state

end PageSource

/-! ## Results -/

/-- The rows of a result that have come, and how to ask for the next page. -/
structure ResultSet.Shows (r : Registry) (source : PageSource) (columns : Columns) (s : ResultSet)
    (rows : List Row) (state : Option Bytes) : Prop where
  source : s.cursor.source = some source
  columns : s.columns = some columns
  rows : Page.HoldAll r s.cursor.pages rows
  state : s.cursor.pagingState = state

namespace ResultSet

variable {r : Registry} {source : PageSource} {columns : Columns} {s : ResultSet}
  {rows : List Row} {state : Option Bytes}

theorem Shows.isExhausted_iff (h : s.Shows r source columns rows state) :
    s.cursor.isExhausted = true ↔ state = none ∧ rows = [] := by
  rw [Cursor.isExhausted, h.rows.all_remaining_eq_zero, h.state]
  simp

theorem Shows.refresh (h : s.Shows r source columns rows state) :
    s.refresh.Shows r source columns rows state :=
  ⟨h.source, h.columns, h.rows, h.state⟩

theorem Shows.nextPage? (h : s.Shows r source columns rows state) :
    s.cursor.nextPage? = state.map fun t => (source.request (some t), source.options.tracing) := by
  rw [Cursor.nextPage?, h.source, h.state]
  cases state <;> rfl

theorem Shows.take_nil (h : s.Shows r source columns [] state) :
    s.cursor.take r = (none, { s.cursor with pages := [] }) := by
  rw [Cursor.take, h.rows.takeFrom_nil]

theorem Shows.take_cons {row : Row} (h : s.Shows r source columns (row :: rows) state) :
    ∃ pages, s.cursor.take r = (some (.ok row), { s.cursor with pages }) ∧
      Page.HoldAll r pages rows := by
  obtain ⟨pages, htake, hpages⟩ := h.rows.takeFrom_cons
  refine ⟨pages, ?_, hpages⟩
  rw [Cursor.take, htake]

/-- Taking a row that has come, or finding that there is none. -/
theorem Shows.tryTake (h : s.Shows r source columns rows state) :
    ∃ rest, (s.tryTake r).2.Shows r source columns rest state ∧
      (s.tryTake r).2.exhausted = (s.tryTake r).2.cursor.isExhausted ∧
      rows.map .ok = (s.tryTake r).1.toList ++ rest.map .ok := by
  unfold ResultSet.tryTake
  cases rows with
  | nil =>
    rw [h.take_nil]
    exact ⟨[], ⟨h.source, h.columns, .nil, h.state⟩, rfl, rfl⟩
  | cons row rows =>
    obtain ⟨pages, htake, hpages⟩ := h.take_cons
    rw [htake]
    exact ⟨rows, ⟨h.source, h.columns, hpages, h.state⟩, rfl, rfl⟩

end ResultSet

/-- The rows that a service has taken. -/
def Service.items : Service → List (Except ExecutionFault Row)
  | .row item => item.toList
  | .page _ | .pagingState _ => []

/-- Whether a service has neither taken a row nor added a page. -/
def Service.isEmpty : Service → Bool
  | .row item => item.isNone
  | .page fetched => !fetched
  | .pagingState _ => true

namespace ResultSet

variable {r : Registry} {source : PageSource} {columns : Columns} {s s' : ResultSet}
  {rows : List Row} {state : Option Bytes} {want : Want}

/-- Without a row that has come, the holder ends or asks for the next page. -/
theorem Shows.advance_nil (h : s.Shows r source columns [] state) :
    ∃ emptied : ResultSet, emptied.Shows r source columns [] state ∧
      emptied.exhausted = s.exhausted ∧
      s.advance r = match state with
        | some t =>
          if s.autoPage then (.page (source.request (some t)) source.options.tracing, emptied)
          else (.item none, emptied.refresh)
        | none => (.item none, emptied.refresh) := by
  have hempty : ({ s with cursor := { s.cursor with pages := [] } } : ResultSet).Shows r source
      columns [] state := ⟨h.source, h.columns, .nil, h.state⟩
  refine ⟨_, hempty, rfl, ?_⟩
  have hnext := hempty.nextPage?
  simp only [advance, h.take_nil, hnext]
  cases state <;> rfl

theorem Shows.serve_inl {service : Service} (h : s.Shows r source columns rows state)
    (hserve : s.serve r want = (.inl service, s')) :
    ∃ rest, s'.Shows r source columns rest state ∧
      rows.map .ok = service.items ++ rest.map .ok ∧
      (s'.exhausted = s'.cursor.isExhausted ∨ want = .pagingState ∧ s' = s) ∧
      (state = none → rows = [] → service.isEmpty = true) := by
  cases want with
  | row =>
    rw [serve] at hserve
    cases rows with
    | nil =>
      obtain ⟨emptied, hempty, _, hadvance⟩ := h.advance_nil
      rw [hadvance] at hserve
      cases state with
      | none =>
        cases hserve
        exact ⟨[], hempty.refresh, rfl, .inl rfl, fun _ _ => rfl⟩
      | some t =>
        cases hauto : s.autoPage <;> rw [hauto] at hserve <;> cases hserve
        exact ⟨[], hempty.refresh, rfl, .inl rfl, fun hf => by cases hf⟩
    | cons row rows =>
      obtain ⟨pages, htake, hpages⟩ := h.take_cons
      simp only [advance, htake] at hserve
      cases hserve
      exact ⟨rows, ⟨h.source, h.columns, hpages, h.state⟩, rfl, .inl rfl, fun _ hf => by cases hf⟩
  | page =>
    rw [serve, h.nextPage?] at hserve
    cases state with
    | some t => cases hserve
    | none =>
      cases hserve
      exact ⟨rows, h.refresh, rfl, .inl rfl, fun _ _ => rfl⟩
  | pagingState =>
    cases hserve
    exact ⟨rows, h, rfl, .inr ⟨rfl, rfl⟩, fun _ _ => rfl⟩

theorem Shows.serve_inr {request : Request × Bool} (h : s.Shows r source columns rows state)
    (hserve : s.serve r want = (.inr request, s')) :
    ∃ t, state = some t ∧ request = (source.request (some t), source.options.tracing) ∧
      s'.Shows r source columns rows state ∧ s'.exhausted = s.exhausted ∧ want ≠ .pagingState := by
  cases want with
  | row =>
    rw [serve] at hserve
    cases rows with
    | nil =>
      obtain ⟨emptied, hempty, hexhausted, hadvance⟩ := h.advance_nil
      rw [hadvance] at hserve
      cases state with
      | none => cases hserve
      | some t =>
        cases hauto : s.autoPage <;> rw [hauto] at hserve <;> cases hserve
        exact ⟨t, rfl, rfl, hempty, hexhausted, fun hf => by cases hf⟩
    | cons row rows =>
      obtain ⟨pages, htake, hpages⟩ := h.take_cons
      simp only [advance, htake] at hserve
      cases hserve
  | page =>
    rw [serve, h.nextPage?] at hserve
    cases state with
    | some t =>
      cases hserve
      exact ⟨t, rfl, rfl, h, rfl, fun hf => by cases hf⟩
    | none => cases hserve
  | pagingState => cases hserve

end ResultSet

/-! ## Pages of a node -/

/-- A page of a node, and the rows that are meant by it. -/
structure NodePage where
  rows : Rows
  meant : List Row

/-- The state from which the page after this one is asked for. -/
def NodePage.next (p : NodePage) : Option Bytes := p.rows.metadata.pagingState

/-- The columns that a page is read by, if it comes without its own. -/
def NodePage.columns (p : NodePage) (fallback : Option Columns) : Columns :=
  (p.rows.metadata.columns <|> fallback).getD []

/-- Whether a page is well formed for whoever reads it by these columns. -/
structure NodePage.IsWellFormed (r : Registry) (fallback : Option Columns) (p : NodePage) :
    Prop where
  count : p.rows.count = p.meant.length
  known : (p.rows.metadata.columns <|> fallback).isSome = true ∨ p.meant = []
  content : Row.Fill r (p.columns fallback) p.rows.content p.meant

theorem NodePage.IsWellFormed.ofRows {r : Registry} {fallback : Option Columns} {p : NodePage}
    (h : p.IsWellFormed r fallback) :
    ∃ page, Page.ofRows p.rows fallback = .ok (page, p.next) ∧ page.Holds r p.meant ∧
      page.columns = p.columns fallback := by
  obtain ⟨hcount, hknown, hcontent⟩ := h
  unfold Page.ofRows
  unfold NodePage.columns at hcontent ⊢
  cases hcolumns : (p.rows.metadata.columns <|> fallback) with
  | some columns =>
    rw [hcolumns] at hcontent
    exact ⟨_, rfl, ⟨hcount, hcontent⟩, rfl⟩
  | none =>
    rw [hcolumns] at hcontent hknown
    have hmeant : p.meant = [] := by
      rcases hknown with hf | hmeant
      · cases hf
      · exact hmeant
    rw [hmeant] at hcount hcontent ⊢
    refine ⟨⟨p.rows.content, 0, []⟩, ?_, ⟨rfl, hcontent⟩, rfl⟩
    simp [show p.rows.count = 0 from hcount, NodePage.next]

namespace ResultSet

variable {r : Registry} {source : PageSource} {columns : Columns} {s s' : ResultSet}
  {rows : List Row} {state : Option Bytes} {p : NodePage}

/-- A page that comes puts its rows behind the others and its state in the place of the last. -/
theorem Shows.receive (h : s.Shows r source columns rows state) (want : Want)
    (hp : p.IsWellFormed r (source.columns? <|> some columns)) :
    ∃ added : ResultSet, added.Shows r source columns (rows ++ p.meant) p.next ∧
      added.exhausted = s.exhausted ∧
      s.receive want (.result (.rows p.rows)) =
        .ok (if want = .page then (some (.page true), added.refresh) else (none, added)) := by
  obtain ⟨page, hpage, hholds, _⟩ := hp.ofRows
  refine ⟨{ s with cursor := s.cursor.push page p.next }, ?_, rfl, ?_⟩
  · exact ⟨h.source, h.columns, h.rows.append_page hholds, rfl⟩
  · have hfallback : ((s.cursor.source.bind (·.columns?)) <|> s.columns) =
        (source.columns? <|> some columns) := by
      rw [h.source, h.columns]
      rfl
    have hadd : s.addPage (.result (.rows p.rows)) =
        .ok { s with cursor := s.cursor.push page p.next } := by
      simp only [addPage, hfallback, hpage]
      rfl
    rw [ResultSet.receive, hadd]
    cases want <;> rfl

/-- The result of the first page. -/
theorem shows_ofResult {response : Response} (hp : p.IsWellFormed r source.columns?) :
    ∃ s, ofResult (.rows p.rows) response source = .ok s ∧
      s.Shows r source (p.columns source.columns?) p.meant p.next ∧
      s.exhausted = s.cursor.isExhausted := by
  obtain ⟨page, hpage, hholds, hcolumns⟩ := hp.ofRows
  simp only [ofResult, hpage]
  refine ⟨_, rfl, ⟨rfl, congrArg some hcolumns, ?_, rfl⟩, rfl⟩
  have hall := Page.HoldAll.cons hholds .nil
  rw [List.append_nil] at hall
  exact hall

end ResultSet

end CqlClient
