import CqlClient.Session.Config
import CqlClient.Session.Fault

/-!
The rows of a result, page by page. Rows are taken one at a time from the pages that have come; a
row that cannot be read ends the whole result, since the place of the next one is lost.
-/

namespace CqlClient

/-- A page with the rows that are left on it. -/
structure Page where
  content : Bytes
  remaining : Nat
  columns : Columns

namespace Page

/-- A page that has come, and the state from which the next one can be asked for. Rows that come
without their columns are read by the given ones. -/
def ofRows (rows : Rows) (fallback : Option Columns) :
    Except ExecutionFault (Page × Option Bytes) :=
  match rows.metadata.columns <|> fallback with
  | some columns => .ok (⟨rows.content, rows.count, columns⟩, rows.metadata.pagingState)
  | none =>
    if rows.count = 0 then .ok (⟨rows.content, 0, []⟩, rows.metadata.pagingState)
    else .error (.call (.violation (.unexpected "rows without metadata")))

/-- Takes a row, if one is left. The last row is refused if bytes are left after it. -/
def take (r : Registry) (page : Page) : Option (Except ExecutionFault Row × Page) :=
  match page.remaining with
  | 0 => none
  | remaining + 1 =>
    match Row.read r page.columns page.content with
    | .error fault rest => some (.error (.row fault), { page with content := rest, remaining := 0 })
    | .ok row rest =>
      let page := { page with content := rest, remaining }
      if remaining = 0 && !rest.isEmpty then
        some (.error (.call (.violation (.trailingBytes rest.length))), page)
      else some (.ok row, page)

end Page

/-- What is executed: a text, or what a server has prepared. -/
inductive Statement where
  | text (cql : String)
  | prepared (p : Prepared)

/-- All that it takes to ask for a page of a statement. -/
structure PageSource where
  statement : Statement
  values : BoundRow
  options : QueryOptions

namespace PageSource

/-- The columns that a prepared statement is known to give. -/
def columns? (s : PageSource) : Option Columns :=
  match s.statement with
  | .text _ => none
  | .prepared p => p.result

/-- The request of the page that a paging state stands for. Columns are left out only if they are
known already. -/
def request (s : PageSource) (pagingState : Option Bytes) : Request :=
  match s.statement with
  | .text cql => .query cql (s.options.parameters s.values pagingState false)
  | .prepared p =>
    .execute p.id (s.options.parameters s.values pagingState
      (s.options.skipMetadata && p.result.isSome))

end PageSource

/-- The pages that have come, and where to find the next one. -/
structure Cursor where
  pages : List Page
  pagingState : Option Bytes
  source : Option PageSource

namespace Cursor

def empty : Cursor := ⟨[], none, none⟩

def isExhausted (c : Cursor) : Bool :=
  c.pagingState.isNone && c.pages.all (·.remaining == 0)

/-- Takes the next row of the pages that have come. -/
def takeFrom (r : Registry) : List Page → Option (Except ExecutionFault Row) × List Page
  | [] => (none, [])
  | page :: pages =>
    match page.take r with
    | some (row, page) => (some row, page :: pages)
    | none => takeFrom r pages

/-- Takes the next row without asking for a page; a row that cannot be read ends the result. -/
def take (r : Registry) (c : Cursor) : Option (Except ExecutionFault Row) × Cursor :=
  match takeFrom r c.pages with
  | (some (.error fault), _) => (some (.error fault), { c with pages := [], pagingState := none })
  | (row, pages) => (row, { c with pages })

/-- The request of the next page, if there is one. -/
def nextPage? (c : Cursor) : Option (Request × Bool) :=
  match c.source, c.pagingState with
  | some source, some state => some (source.request (some state), source.options.tracing)
  | _, _ => none

/-- Adds a page that has come. -/
def push (c : Cursor) (page : Page) (pagingState : Option Bytes) : Cursor :=
  { c with pages := c.pages ++ [page], pagingState }

end Cursor

end CqlClient
