import CqlClient.Session.Call

/-!
Scripts: a client is led step by step, by its callers and by the other side, and a report says
after each step what can be seen of it. Between steps everything goes on as far as it can; steps
of one batch follow each other at once.
-/

namespace CqlClient

inductive Step where
  | call (id : OperationId) (call : Call)
  | tryTake (result : OperationId)
  | cancel (id : OperationId)
  | forget (result : OperationId)
  | dropSession
  /-- Bytes come from the other side. -/
  | receive (bytes : Bytes)
  /-- The other side goes. -/
  | endPeer
  | batch (steps : List Step)

/-- What a step that starts no operation gives at once. -/
inductive Prompt where
  | row (row : Except ExecutionFault (Option Row))
  | refused (refusal : Refusal)

structure Report where
  finished : List (OperationId × Outcome)
  sent : List Bytes
  prompt : Option Prompt
  pending : List OperationId
  /-- Whether the other side has seen the stream of bytes close. -/
  hungUp : Bool
  /-- Of an open session: whether its connection is closed, and its keyspace. -/
  session : Option (Bool × Option String)
  /-- The results that are held, and whether they are exhausted. -/
  results : List (OperationId × Bool)

namespace Client

def perform (c : Client) : Step → Option Prompt × Client
  | .call id call =>
    match c.call? id call with
    | .ok c => (none, c)
    | .error refusal => (some (.refused refusal), c)
  | .tryTake label =>
    match c.tryTake? label with
    | .ok (row, c) => (some (.row row), c)
    | .error refusal => (some (.refused refusal), c)
  | .cancel id => (none, c.cancel id)
  | .forget label => (none, c.forget label)
  | .dropSession => (none, c.dropSession)
  | .receive bytes => (none, c.receive bytes)
  | .endPeer => (none, c.endPeer)
  | .batch steps => (none, performAll c steps)
where
  performAll (c : Client) : List Step → Client
    | [] => c
    | step :: steps => performAll (c.perform step).2 steps

def report (c : Client) (prompt : Option Prompt) : Report where
  finished := c.finished.reverse
  sent := c.sent.reverse
  prompt := prompt
  pending := (c.operations.map (·.1)).mergeSort
  hungUp := c.hungUp
  session := if c.isOpen then some ((c.connection.map (·.pool.closed)).getD true, c.keyspace)
    else none
  results := c.held.filterMap fun (label, _) => (c.isExhausted label).map (label, ·)

/-- Follows a script from a state in which everything has gone as far as it can. -/
def follow (c : Client) : List Step → List Report
  | [] => []
  | step :: steps =>
    let (prompt, c) := c.perform step
    let c := c.settleDown
    c.report prompt :: c.clear.follow steps

end Client

/-- The reports of a script: one for the opening of a session, which is an operation with the given
name, then one for each step. -/
def Script.run (config : SessionConfig) (opening : OperationId) (steps : List Step) : List Report :=
  let c := (Client.opening config opening).settleDown
  c.report none :: c.clear.follow steps

end CqlClient
