import CqlClient.Fault
import CqlClient.Bytes

/-!
Trees of plain data, in which values, results and faults are shown to people and tools. Byte strings
are shown in hexadecimal. Integers of 64 bits and more are shown as texts, since readers of numbers
may lose their last digits.
-/

namespace CqlClient

inductive Tree where
  | null
  | bool (b : Bool)
  | number (n : Int)
  | text (s : String)
  | list (items : List Tree)
  | record (fields : List (String × Tree))
  deriving Inhabited

class Render (α : Type) where
  render : α → Tree

export Render (render)

namespace Tree

abbrev Field := String × Tree

def field {α : Type} [Render α] (name : String) (a : α) : Field := (name, render a)

/-- The fields of a record. -/
def fields : Tree → List Field
  | record fields => fields
  | _ => []

def tuple (items : List Tree) : Tree := list items

/-- A number that may have too many digits to be shown as one. -/
def wide (n : Int) : Tree := text (toString n)

end Tree

instance : Render Tree := ⟨id⟩
instance : Render Bool := ⟨.bool⟩
instance : Render Nat := ⟨fun n => .number n⟩
instance : Render Int := ⟨.number⟩
instance : Render String := ⟨.text⟩
instance : Render UInt8 := ⟨fun n => .number n.toNat⟩
instance : Render UInt16 := ⟨fun n => .number n.toNat⟩
instance : Render UInt32 := ⟨fun n => .number n.toNat⟩
instance : Render Int8 := ⟨fun n => .number n.toInt⟩
instance : Render Int16 := ⟨fun n => .number n.toInt⟩
instance : Render Int32 := ⟨fun n => .number n.toInt⟩
instance : Render Int64 := ⟨fun n => .wide n.toInt⟩

instance {α : Type} [Render α] : Render (Option α) where
  render
    | none => .null
    | some a => render a

instance {α : Type} [Render α] : Render (List α) := ⟨fun as => .list (as.map render)⟩

instance {α β : Type} [Render α] [Render β] : Render (α × β) where
  render
    | (a, b) => .list [render a, render b]

/-- Two hexadecimal digits a byte. -/
def Bytes.hexText (bytes : Bytes) : String :=
  bytes.foldl (fun s b => (s.push (b.toNat / 16).digitChar).push (b.toNat % 16).digitChar) ""

instance : Render Bytes := ⟨fun bytes => .text bytes.hexText⟩

namespace Tree

/-- A map as a record. -/
def ofEntries {α : Type} [Render α] (entries : List (String × α)) : Tree :=
  .record (entries.map fun (key, a) => (key, render a))

def ofFault {ε : Type} [Fault ε] (e : ε) : Tree :=
  .record [field "error" (Fault.label e), field "message" (Fault.message e)]

/-- What a computation gives, or its fault. -/
def ofOutcome {ε α : Type} [Render ε] (write : α → Tree) : Except ε α → Tree
  | .ok a => write a
  | .error e => render e

/-- What a computation gives under a name, or its fault. -/
def named {ε α : Type} [Render ε] [Render α] (name : String) : Except ε α → Tree :=
  ofOutcome fun a => .record [field name a]

end Tree

instance {ε : Type} [Fault ε] : Render ε := ⟨Tree.ofFault⟩

instance {ε α : Type} [Render ε] [Render α] : Render (Except ε α) := ⟨Tree.ofOutcome render⟩

end CqlClient
