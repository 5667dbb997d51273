import CqlClient.Session.Client.Turn

/-!
A client among its callers and the other side: bytes come, the other side goes, callers start
operations and give them up, and in between the tasks take turns until none can go on.
-/

namespace CqlClient.Client

/-- Lets go of a connection that nobody can use any more: the writer ends when its queue is
empty. -/
def release (c : Client) (n : Connection) : Client :=
  { c with connection := some { n with reading := false, released := true } }.wake .writer

/-- Lets tasks take turns until none can go on, or `fuel` turns are taken. -/
def run : Nat → Client → Client
  | 0, c => c
  | fuel + 1, c =>
    match c.ready with
    | task :: ready => run fuel ({ c with ready }.turn task)
    | [] =>
      match c.connection with
      | some n => if n.released || c.isUsed then c else run fuel (c.release n)
      | none => c

/-- More turns than operations take that end. -/
def turnLimit : Nat := 10 ^ 6

def settleDown (c : Client) : Client := run turnLimit c

/-- The task that reads what comes. -/
def listeners (c : Client) : List Task :=
  .reader :: c.operations.filterMap fun (id, stage) =>
    match stage with
    | .opening _ => some (.operation id)
    | _ => none

def wakeListeners (c : Client) : Client := c.listeners.foldl wake c

/-- A client that opens a session, as an operation. -/
def opening (config : SessionConfig) (id : OperationId) : Client :=
  let c : Client := {
    config, received := [], ended := false, deaf := false, sent := [], hungUp := false
    connection := none, isOpen := false, keyspace := none, results := [], held := []
    statements := [], operations := [], ready := [], finished := [] }
  match Handshake.optionsFrame with
  | .ok frame => c.sendFirst id frame .asked
  | .error fault => c.notOpened id (.invalid fault)

/-- Bytes come from the other side, unless it has ended what it sends. -/
def receive (c : Client) (bytes : Bytes) : Client :=
  if c.ended then c else { c with received := c.received ++ bytes }.wakeListeners

/-- The other side ends what it sends. -/
def endSending (c : Client) : Client := { c with ended := true }.wakeListeners

/-- The other side takes nothing from now on, which is found out by the next frame. -/
def endTaking (c : Client) : Client := { c with deaf := true }

/-- The other side goes. -/
def endPeer (c : Client) : Client := c.endTaking.endSending

/-- Starts an operation; its first turn comes later. -/
def begin (c : Client) (id : OperationId) (operation : Operation) : Client :=
  (c.set id (.fresh operation)).wake (.operation id)

/-- Gives up the cursor of a result, or the wait for it. -/
def leaveResult (c : Client) (id : OperationId) (key : Nat) : Client :=
  if (c.results.lookup key).bind (·.holder) = some id then c.unlock key
  else c.modifyResult key fun s => { s with waiting := s.waiting.filter (· != id) }

def leaveGoal (c : Client) (id : OperationId) : Goal → Client
  | .page key _ => c.leaveResult id key
  | _ => c

/-- Gives up an operation, and all that it holds. -/
def cancel (c : Client) (id : OperationId) : Client :=
  let c' := { c with
    operations := removeEntry c.operations id
    ready := c.ready.filter (· != .operation id) }
  match c.operations.lookup id with
  | none => c
  | some (.opening _) => c'.hangUp
  | some (.queued stream _ goal) =>
    let c' := c'.modifyConnection fun n => { n with senders := n.senders.filter (· != id) }
    (c'.leaveStream stream false).leaveGoal id goal
  | some (.waiting stream goal) => (c'.leaveStream stream true).leaveGoal id goal
  | some (.locking key _) | some (.holding key _) => c'.leaveResult id key
  | some (.fresh _) | some (.taking ..) | some (.closing _) => c'

/-- Gives up the result of an operation. -/
def forget (c : Client) (id : OperationId) : Client := { c with held := removeEntry c.held id }

/-- Gives up the session. Results keep the connection as long as they may ask for pages. -/
def dropSession (c : Client) : Client := { c with isOpen := false }

/-- Takes a row of a held result that has come, unless another operation holds the cursor. -/
def tryTake (c : Client) (key : Nat) : Option (Except ExecutionFault Row) × Client :=
  match c.results.lookup key with
  | none => (none, c)
  | some shared =>
    let (row, shared) := shared.tryTake c.config.registry
    (row, c.modifyResult key fun _ => shared)

end CqlClient.Client
