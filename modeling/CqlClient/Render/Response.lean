import CqlClient.Render.Value
import CqlClient.Response
import CqlClient.Row.Iterator
import CqlClient.Sharding

/-!
How responses are shown.
-/

namespace CqlClient

open CqlClient.Tree (field)

instance : Render Column where
  render c := .record [field "keyspace" c.keyspace, field "table" c.table, field "name" c.name,
    field "index" c.index, field "type" c.type]

/-- All that is known of columns, with the positions of some names. -/
def Columns.facts (columns : Columns) (names : List String) : List Tree.Field :=
  [field "schema" columns, field "len" columns.length, field "empty" columns.isEmpty,
    field "described" (columns.map fun c => [render c.name, render c.keyspace, render c.table,
      render c.type.code.name, render (c.descriptor?.map (·.text))]),
    field "display" (columns.map (·.text)), field "types" (columns.types.map (·.text)),
    field "index_of" (names.map (Columns.indexOf? columns))]

def RowDecodeFault.column (e : RowDecodeFault) : Tree.Field :=
  ("column", .tuple [render e.index, render e.name, render e.type])

instance : Render RowDecodeFault where
  render e := .record [field "error" e.label, field "message" e.message, e.column]

def ErrorDetail.field : ErrorDetail → Tree.Field
  | alreadyExists keyspace table => Tree.field "AlreadyExists" (keyspace, table)
  | unavailable level required alive =>
    Tree.field "Unavailable" [render (level.name, level.code), render required, render alive]
  | unprepared id => Tree.field "Unprepared" id
  | rateLimitReached isWrite rejected => Tree.field "RateLimitReached" (isWrite, rejected)
  | other code details => Tree.field "Other" (code, details)

def ServerError.fields (e : ServerError) : List Tree.Field :=
  let code := match e.known? with
    | some known => render known.name
    | none => render e.code
  [field "kind" "error", ("code", code), field "message" e.message, field "display" e.text,
    ("detail", .record [e.detail.field])]

instance : Render DatabaseError where
  render e := .record (e.error.fields ++ [field "tracing_id" e.tracingId,
    ("custom_payload", .ofEntries e.customPayload), field "warnings" e.warnings])

def Prepared.fields (p : Prepared) : List Tree.Field :=
  [field "kind" "prepared", field "id" p.id, field "pk_indexes" p.partitionKey,
    field "bind" p.markers, field "result" p.result, field "is_lwt" p.isLwt]

def ChangeKind.name : ChangeKind → String
  | created => "Created"
  | updated => "Updated"
  | dropped => "Dropped"

def ChangeTarget.fields : ChangeTarget → List Tree.Field
  | keyspace => describe "Keyspace" none none
  | table name => describe "Table" (some name) none
  | type name => describe "Type" (some name) none
  | function name arguments => describe "Function" (some name) (some arguments)
  | aggregate name arguments => describe "Aggregate" (some name) (some arguments)
  | other target => describe "Other" (some target) none
where
  describe (kind : String) (name : Option String) (arguments : Option (List String)) :
      List Tree.Field :=
    [Tree.field "target" kind, Tree.field "name" name, Tree.field "arg_types" arguments]

def SchemaChange.fields (c : SchemaChange) : List Tree.Field :=
  [field "kind" "schema_change", field "change" c.kind.name, field "keyspace" c.keyspace] ++
    c.target.fields

/-- A page with at most `take` of its rows, if columns are known by which to read them. -/
def Rows.fields (r : Rows) (fallback : Option Columns) (take : Nat) : List Tree.Field :=
  let decoded := (r.iterator? .standard fallback).map (·.collect take [])
  [field "kind" "rows", field "columns_count" r.metadata.columnCount,
    field "paging_state" r.metadata.pagingState, field "schema" r.metadata.columns,
    field "rows_count" r.count, field "rows_bytes" r.content.length] ++
  match decoded with
  | some (rows, it) => [field "rows" rows, field "remaining_bytes" it.content.length]
  | none => []

def ResponseBody.fields (fallback : Option Columns) (take : Nat) : ResponseBody → List Tree.Field
  | error e => e.fields
  | ready => [field "kind" "ready"]
  | authenticate name => [field "kind" "authenticate", field "name" name]
  | supported s => [field "kind" "supported", ("options", .ofEntries s)]
  | result .void => [field "kind" "void"]
  | result (.setKeyspace keyspace) => [field "kind" "set_keyspace", field "keyspace" keyspace]
  | result (.schemaChange change) => change.fields
  | result (.prepared prepared) => prepared.fields
  | result (.rows rows) => rows.fields fallback take

def Response.tree (fallback : Option Columns) (take : Nat) (r : Response) : Tree :=
  let ok := match r.ok with
    | .ok _ => .bool true
    | .error e =>
      .record [field "database_error" e.error.text, field "code" e.error.known?.isSome]
  .record [field "tracing_id" r.tracingId, ("custom_payload", .ofEntries r.customPayload),
    field "warnings" r.warnings, ("body", .record (r.body.fields fallback take)), ("ok", ok)]

instance : Render Sharding where
  render s := .record [field "shard" s.shard, field "nr_shards" s.count,
    field "partitioner" s.partitioner, field "algorithm" s.algorithm.name,
    field "ignore_msb" s.ignoredBits, field "port" s.port, field "port_ssl" s.securePort]

instance : Render Extensions where
  render e := .record [field "rate_limit" e.rateLimitCode, field "lwt_mask" e.lwtMask,
    field "startup" e.startupOptions]

end CqlClient
