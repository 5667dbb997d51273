import CqlClient.Session.Config
import CqlClient.Session.Fault

/-!
The stream ids of a connection. A request holds an id until it has taken its answer. An id that is
given up while the answer may still come is abandoned, and only that answer, or the closing of the
pool, makes it available again; so no later request takes that answer for its own.

Callers on several threads see the functions up to `response` as single steps, in any order;
`leave`, `allocate` and `close` are made of such steps.
-/

namespace CqlClient

inductive Slot where
  | free
  | waiting
  /-- What the request that waits will find. -/
  | completed (result : Except CallFault Envelope)
  /-- The result is taken; the id is still held. -/
  | consumed
  | abandoned

structure StreamPool where
  slots : Array Slot
  /-- Bit `id` is set when `id` can be claimed. -/
  available : Nat
  closed : Bool

namespace StreamPool

def new (size : Nat) : StreamPool :=
  let size := min (max size 1) maxStreams
  ⟨Array.replicate size .free, 2 ^ size - 1, false⟩

def size (p : StreamPool) : Nat := p.slots.size

def slot (p : StreamPool) (id : Nat) : Slot := p.slots.getD id .free

def setSlot (p : StreamPool) (id : Nat) (slot : Slot) : StreamPool :=
  { p with slots := p.slots.setIfInBounds id slot }

/-- The least available id among the `count` ids from `id` on. -/
def leastFrom? (available : Nat) : Nat → Nat → Option Nat
  | 0, _ => none
  | count + 1, id =>
    if available.testBit id then some id else leastFrom? available count (id + 1)

/-- Takes an available id. -/
def claim (p : StreamPool) (id : Nat) : StreamPool :=
  { p with available := p.available ^^^ 2 ^ id }

/-- Takes the least available id. -/
def claim? (p : StreamPool) : Option (Nat × StreamPool) :=
  (leastFrom? p.available p.size 0).map fun id => (id, p.claim id)

/-- Has a claimed id wait for its answer. -/
def arm (p : StreamPool) (id : Nat) : StreamPool := p.setSlot id .waiting

def release (p : StreamPool) (id : Nat) : StreamPool :=
  { p with available := p.available ||| 2 ^ id }

/-- Gives up the slot of an id, and says whether the id is to be released. If its request was sent
and is still unanswered, the id is abandoned. -/
def vacate (p : StreamPool) (id : Nat) (sent : Bool) : Bool × StreamPool :=
  match p.slot id with
  | .waiting =>
    if sent && !p.closed then (false, p.setSlot id .abandoned) else (true, p.setSlot id .free)
  | _ => (true, p.setSlot id .free)

/-- Gives up an id. -/
def leave (p : StreamPool) (id : Nat) (sent : Bool) : StreamPool :=
  match p.vacate id sent with
  | (true, p) => p.release id
  | (false, p) => p

/-- What became of an envelope. -/
inductive Completion where
  | delivered
  /-- No request waits on its stream. -/
  | stray
  /-- Its stream already has a result. -/
  | twice
  deriving DecidableEq

/-- Hands an envelope to the request of its stream. A result that is not taken yet is spoiled by a
second one, since nobody can tell which of them is the answer. -/
def complete (p : StreamPool) (e : Envelope) : Completion × StreamPool :=
  if e.stream < 0 then (.stray, p)
  else
    let id := e.stream.toInt.toNat
    match p.slot id with
    | .free => (.stray, p)
    | .waiting => (.delivered, p.setSlot id (.completed (.ok e)))
    | .completed _ =>
      (.twice, p.setSlot id (.completed (.error (.violation (.completedTwice e.stream)))))
    | .consumed => (.twice, p)
    | .abandoned => (.delivered, (p.setSlot id .free).release id)

def markClosed (p : StreamPool) : StreamPool := { p with closed := true }

/-- Ends the wait on one id. -/
def sweep (fault : CallFault) (p : StreamPool) (id : Nat) : StreamPool :=
  match p.slot id with
  | .waiting => p.setSlot id (.completed (.error fault))
  | .abandoned => (p.setSlot id .free).release id
  | _ => p

/-- Takes the result of an id, if there is one yet. -/
def response (p : StreamPool) (id : Nat) : Option (Except CallFault Envelope) × StreamPool :=
  match p.slot id with
  | .completed result => (some result, p.setSlot id .consumed)
  | .waiting => (none, p)
  | _ => (some (.error .closed), p)

/-- Claims an id for a request. The pool is looked at again once the id waits, so that closing it
meanwhile is not missed. -/
def allocate (p : StreamPool) : Except CallFault Nat × StreamPool :=
  if p.closed then (.error .closed, p)
  else match p.claim? with
    | none => (.error .noStream, p)
    | some (id, p) =>
      let p := p.arm id
      if p.closed then (.error .closed, p.leave id false) else (.ok id, p)

/-- Fails all that wait and refuses all that come; closing again changes nothing. -/
def close (p : StreamPool) (fault : CallFault) : StreamPool :=
  if p.closed then p else (List.range p.size).foldl (sweep fault) p.markClosed

end StreamPool

end CqlClient
