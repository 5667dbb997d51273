import CqlClient.Session.Call

/-!
Dialogues: callers wait for each operation before they go on, and the other side answers each frame
with the next of its replies. It goes when it has none left.
-/

namespace CqlClient

structure Dialogue where
  client : Client
  replies : List Bytes
  /-- The frames that the other side got, the last one first. -/
  frames : List Bytes

namespace Dialogue

/-- Answers a frame. -/
def answer (d : Dialogue) (frame : Bytes) : Dialogue :=
  if d.client.deaf then d
  else
    let d := { d with frames := frame :: d.frames }
    match d.replies with
    | [] => { d with client := d.client.endPeer }
    | reply :: replies => { d with client := d.client.receive reply, replies }

/-- Answers frames until none is sent any more. -/
def settle : Nat → Dialogue → Dialogue
  | 0, d => d
  | fuel + 1, d =>
    let client := d.client.settleDown
    match client.sent.reverse with
    | [] => { d with client }
    | frames =>
      settle fuel (frames.foldl answer { d with client := { client with sent := [] } })

/-- Goes on until no operation can; each round takes a reply, or the other side goes. -/
def goOn (d : Dialogue) : Dialogue := d.settle (d.replies.length + 2)

def opening (config : SessionConfig) (id : OperationId) (replies : List Bytes) : Dialogue :=
  goOn { client := .opening config id, replies, frames := [] }

inductive Step where
  | call (id : OperationId) (call : Call)
  | tryTake (result : OperationId)
  | state

/-- What a caller gets. -/
inductive Reply where
  | outcome (outcome : Outcome)
  /-- What comes of a result, and whether it is exhausted now. -/
  | item (outcome : Outcome) (exhausted : Option Bool)
  | state (keyspace : Option String) (sharding : Option Sharding) (closed : Bool)
  | refused (refusal : Refusal)
  /-- The operation cannot end. -/
  | stuck

/-- The result that a call is about. -/
def subject? : Call → Option OperationId
  | .consume result _ | .drain result => some result
  | _ => none

def perform (d : Dialogue) : Step → Reply × Dialogue
  | .call id call =>
    match d.client.call? id call with
    | .error refusal => (.refused refusal, d)
    | .ok client =>
      let d := goOn { d with client }
      let reply := match d.client.outcome? id, subject? call with
        | some outcome, some result => .item outcome (d.client.isExhausted result)
        | some outcome, none => .outcome outcome
        | none, _ => .stuck
      (reply, { d with client := d.client.clear })
  | .tryTake result =>
    match d.client.tryTake? result with
    | .error refusal => (.refused refusal, d)
    | .ok (row, client) =>
      let outcome := match row with
        | .ok row => Outcome.row row
        | .error fault => .failed fault
      (.item outcome (client.isExhausted result), { d with client })
  | .state =>
    let connection := d.client.connection
    (.state d.client.keyspace (connection.bind (·.sharding))
      ((connection.map (·.pool.closed)).getD true), d)

def performAll (d : Dialogue) : List Step → List Reply × Dialogue
  | [] => ([], d)
  | step :: steps =>
    let (reply, d) := d.perform step
    let (replies, d) := d.performAll steps
    (reply :: replies, d)

/-- Opens a session and has the steps follow, or says why it cannot be opened; in both cases with
the frames that the other side got, in order. -/
def run (config : SessionConfig) (id : OperationId) (replies : List Bytes) (steps : List Step) :
    Except Outcome (List Reply) × List Bytes :=
  let d := opening config id replies
  match d.client.outcome? id with
  | some (.notOpened fault) => (.error (.notOpened fault), d.frames.reverse)
  | some (.panicked cause) => (.error (.panicked cause), d.frames.reverse)
  | _ =>
    let (replies, d) := performAll { d with client := d.client.clear } steps
    (.ok replies, d.frames.reverse)

end Dialogue

end CqlClient
