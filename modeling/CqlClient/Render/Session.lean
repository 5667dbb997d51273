import CqlClient.Render.Config
import CqlClient.Render.Fault
import CqlClient.Render.Frame
import CqlClient.Session.Dialogue
import CqlClient.Session.Script

/-!
How the outcomes of operations are shown, and the reports of scripts.
-/

namespace CqlClient

open CqlClient.Tree (field)

def ResultKind.fields : ResultKind → List Tree.Field
  | void => [field "kind" "void"]
  | rows => [field "kind" "rows"]
  | setKeyspace keyspace => [field "kind" "set_keyspace", field "keyspace" keyspace]
  | schemaChange change => change.fields

instance : Render ResultSet where
  render s := .record (s.kind.fields ++ [field "schema" s.columns,
    field "tracing_id" s.tracingId, field "warnings" s.warnings])

def rowFields (row : Option Row) : List Tree.Field := [field "row" row]

def openedTree (sharding : Option Sharding) (extensions : Extensions) (options : QueryOptions) :
    Tree :=
  .record [("open", .record [field "sharding" sharding, field "extensions" extensions,
    field "address" false, field "options" options])]

def Outcome.tree : Outcome → Tree
  | opened sharding extensions options => openedTree sharding extensions options
  | notOpened fault => render fault
  | result s => render s
  | prepared cql p => .record (p.fields ++ [field "statement" cql])
  | keyspace (.ok ()) => .text "ok"
  | keyspace (.error fault) => render fault
  | row r => .record (rowFields r)
  | rows rs => .record [field "rows" rs]
  | items rs => .record [field "stream"
      (rs.map fun (item : Except ExecutionFault Row) =>
        Tree.ofOutcome (fun r => .record (rowFields (some r))) item)]
  | page fetched => .record [field "fetched" fetched]
  | pagingState state => .record [field "paging_state" state]
  | closed => .text "closed"
  | failed fault => render fault
  | panicked cause => render cause

instance : Render Outcome := ⟨Outcome.tree⟩

/-- A frame as its receiver sees it. -/
def sentTree (frame : Bytes) : Tree := .ofOutcome Envelope.requestTree (Envelope.ofBytes frame)

instance : Render Prompt where
  render
    | .row row => .ofOutcome (fun r => .record (rowFields r)) row
    | .refused refusal => .text refusal.message

/-- What there is nothing to say of is left out. -/
instance : Render Report where
  render r := .record <|
    [("done", .ofEntries r.finished), field "sent" (r.sent.map sentTree)] ++
    (r.prompt.map (field "now" ·)).toList ++
    (if r.pending.isEmpty then [] else [field "pending" r.pending]) ++
    (if r.hungUp then [field "peer_eof" true] else []) ++
    (match r.session with
      | some (closed, keyspace) => [field "closed" closed, field "keyspace" keyspace]
      | none => []) ++
    (if r.results.isEmpty then [] else [("exhausted", .ofEntries r.results)])

/-- In a dialogue a result shows its kind only. -/
instance : Render Dialogue.Reply where
  render
    | .outcome (.result s) => .record s.kind.fields
    | .outcome outcome => render outcome
    | .item outcome exhausted =>
      .record ((render outcome).fields ++ [field "exhausted" exhausted])
    | .state keyspace sharding closed =>
      .record [field "keyspace" keyspace, field "sharding" sharding, field "closed" closed]
    | .refused refusal => .text refusal.message
    | .stuck => .null

/-- A whole dialogue. -/
def dialogueTree (replies : Except Outcome (List Dialogue.Reply)) (frames : List Bytes) : Tree :=
  let sent := field "sent" (frames.map sentTree)
  match replies with
  | .ok replies => .record [field "steps" replies, sent]
  | .error outcome => .record [field "open" outcome, sent]

end CqlClient
