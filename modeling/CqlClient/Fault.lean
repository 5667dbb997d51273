/-!
How things go wrong. Most often with a fault, which is handed to the caller and which the program
goes on after; but where a number gets out of what the machine or its libraries can hold, the
program gives up in the middle of what it does, and no caller is handed anything.
-/

namespace CqlClient

/-- What all faults of this library can say of themselves. -/
class Fault (ε : Type) where
  /-- The names of the fault and of its cause, outermost first, for callers that count faults or
  branch on them without looking at their data. -/
  label : ε → String
  /-- What happened, in words. -/
  message : ε → String

/-- Why the program gives up. -/
inductive Panic where
  /-- A product does not fit into a word. -/
  | multiplyOverflow
  /-- A queue without any room is to be made. -/
  | emptyQueue
  /-- A queue with more room than can be counted is to be made. -/
  | wideQueue
  /-- A buffer is to be made that is wider than any memory. -/
  | wideBuffer
  deriving DecidableEq

def Panic.message : Panic → String
  | multiplyOverflow => "attempt to multiply with overflow"
  | emptyQueue => "mpsc bounded channel requires buffer > 0"
  | wideQueue => "a semaphore may not have more than MAX_PERMITS permits (2305843009213693951)"
  | wideBuffer => "capacity overflow"

instance : Fault Panic := ⟨fun _ => "panic", Panic.message⟩

/-- The product of two sizes, which has to fit into a word. -/
def checkedMul (m n : Nat) : Except Panic Nat :=
  if m * n < UInt64.size then .ok (m * n) else .error .multiplyOverflow

variable {m n : Nat}

theorem checkedMul_of_lt (h : m * n < UInt64.size) : checkedMul m n = .ok (m * n) := if_pos h

theorem checkedMul_of_le (h : UInt64.size ≤ m * n) : checkedMul m n = .error .multiplyOverflow :=
  if_neg (Nat.not_lt.mpr h)

end CqlClient
