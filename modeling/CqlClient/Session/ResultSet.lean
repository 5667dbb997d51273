import CqlClient.Session.Cursor

/-!
Results of statements. Several callers may take rows from one result: each row goes to one of them,
and one of them at a time holds the cursor, also while it waits for a page.
-/

namespace CqlClient

inductive ResultKind where
  | void
  | rows
  | setKeyspace (keyspace : String)
  | schemaChange (change : SchemaChange)

structure ResultSet where
  kind : ResultKind
  tracingId : Option Bytes
  warnings : List String
  columns : Option Columns
  autoPage : Bool
  cursor : Cursor
  /-- No row has come that is not taken, and no page is left to ask for. It is looked at without
  holding the cursor. -/
  exhausted : Bool

namespace ResultSet

/-- The result of a body, for the statement that it answers. -/
def ofResult (result : Result) (response : Response) (source : PageSource) :
    Except ExecutionFault ResultSet :=
  let plain (kind : ResultKind) : ResultSet :=
    ⟨kind, response.tracingId, response.warnings, none, source.options.autoPage, .empty, true⟩
  match result with
  | .void => .ok (plain .void)
  | .setKeyspace keyspace => .ok (plain (.setKeyspace keyspace))
  | .schemaChange change => .ok (plain (.schemaChange change))
  | .prepared _ => .error (.call (.violation (.unexpected "prepared result")))
  | .rows rows => do
    let (page, pagingState) ← Page.ofRows rows source.columns?
    let cursor : Cursor := ⟨[page], pagingState, some source⟩
    return { plain .rows with
      columns := some page.columns
      cursor
      exhausted := cursor.isExhausted }

def refresh (s : ResultSet) : ResultSet := { s with exhausted := s.cursor.isExhausted }

/-- What a caller that holds the cursor meets when it asks for a row. -/
inductive Advance where
  /-- A row, or the end of the result for this caller. -/
  | item (row : Option (Except ExecutionFault Row))
  /-- A page has to come first. -/
  | page (request : Request) (tracing : Bool)

def advance (r : Registry) (s : ResultSet) : Advance × ResultSet :=
  match s.cursor.take r with
  | (some row, cursor) => (.item (some row), { s with cursor }.refresh)
  | (none, cursor) =>
    let s := { s with cursor }
    match cursor.nextPage? with
    | some (request, tracing) =>
      if s.autoPage then (.page request tracing, s) else (.item none, s.refresh)
    | none => (.item none, s.refresh)

/-- Takes a row that has come, without waiting for anything. -/
def tryTake (r : Registry) (s : ResultSet) : Option (Except ExecutionFault Row) × ResultSet :=
  let (row, cursor) := s.cursor.take r
  (row, { s with cursor }.refresh)

/-- Adds the page that a response holds. The exhausted mark is left to whoever holds the cursor. -/
def addPage (s : ResultSet) (body : ResponseBody) : Except ExecutionFault ResultSet :=
  match body with
  | .result (.rows rows) => do
    let fallback := (s.cursor.source.bind (·.columns?)) <|> s.columns
    let (page, pagingState) ← Page.ofRows rows fallback
    return { s with cursor := s.cursor.push page pagingState }
  | .result other => .error (.call (.violation (.unexpected other.name)))
  | other => .error (.call (.violation (.unexpected other.name)))

end ResultSet

end CqlClient
