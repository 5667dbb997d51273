import CqlClient.Session.Operation

/-!
A result and its lock. Whoever holds the cursor is served until it has what it wants or has to ask
for a page, and keeps the cursor while the page is on its way; the cursor then passes to the
operation that has waited longest for it.
-/

namespace CqlClient

/-- What an operation wants of the cursor of a result. -/
inductive Want where
  | row
  /-- Another page, whatever the options say. -/
  | page
  | pagingState
  deriving DecidableEq

def Consumer.want : Consumer → Want
  | row | rows _ | items _ => .row
  | page => .page
  | pagingState => .pagingState

/-- What an operation gets of the cursor of a result. -/
inductive Service where
  | row (item : Option (Except ExecutionFault Row))
  | page (fetched : Bool)
  | pagingState (state : Option Bytes)

namespace ResultSet

/-- Serves the holder of the cursor, or says what to ask for first. -/
def serve (r : Registry) (s : ResultSet) : Want → (Service ⊕ Request × Bool) × ResultSet
  | .row =>
    match s.advance r with
    | (.item item, s) => (.inl (.row item), s)
    | (.page request tracing, s) => (.inr (request, tracing), s)
  | .page =>
    match s.cursor.nextPage? with
    | some request => (.inr request, s)
    | none => (.inl (.page false), s.refresh)
  | .pagingState => (.inl (.pagingState s.cursor.pagingState), s)

/-- Adds the page that the holder of the cursor has asked for, which may be all that it wanted. -/
def receive (s : ResultSet) (want : Want) (body : ResponseBody) :
    Except ExecutionFault (Option Service × ResultSet) := do
  let s ← s.addPage body
  match want with
  | .page => return (some (.page true), s.refresh)
  | _ => return (none, s)

end ResultSet

/-- A result, who holds its cursor, and who waits for it. -/
structure SharedResult where
  result : ResultSet
  holder : Option OperationId
  waiting : List OperationId

namespace SharedResult

/-- Takes the cursor, or waits for it. -/
def lock (s : SharedResult) (id : OperationId) : SharedResult :=
  match s.holder with
  | none => { s with holder := some id }
  | some _ => { s with waiting := s.waiting ++ [id] }

/-- Passes the cursor on. -/
def unlock (s : SharedResult) : SharedResult :=
  match s.waiting with
  | next :: waiting => { s with holder := some next, waiting }
  | [] => { s with holder := none }

/-- Takes a row that has come, unless the cursor is held. -/
def tryTake (r : Registry) (s : SharedResult) :
    Option (Except ExecutionFault Row) × SharedResult :=
  if s.holder.isSome then (none, s)
  else
    let (row, result) := s.result.tryTake r
    (row, { s with result })

end SharedResult

end CqlClient
