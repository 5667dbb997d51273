import CqlClient.CqlType.Descriptor
import CqlClient.Frame.Fault

/-!
Columns of results and of bind markers. Names may repeat; looking one up finds the last column
that carries it.
-/

namespace CqlClient

structure Column where
  keyspace : String
  table : String
  name : String
  /-- The position in the row. -/
  index : Nat
  type : CqlType

def Column.text (c : Column) : String :=
  c.keyspace ++ "." ++ c.table ++ "." ++ c.name ++ " " ++ c.type.text

/-- The type of a column that its code does not describe completely. -/
def Column.descriptor? (c : Column) : Option CqlType :=
  if c.type.code.isParametric then some c.type else none

abbrev Columns := List Column

namespace Columns

/-- The position of the last column of a name. -/
def indexOf? (columns : Columns) (name : String) : Option Nat :=
  (columns.reverse.find? (·.name == name)).map (·.index)

def types (columns : Columns) : List CqlType := columns.map (·.type)

/-- Reads the keyspace and table of a column, unless all share the given ones. -/
def readTable : Option (String × String) → FrameReader (String × String)
  | some table => pure table
  | none => do return (← FrameReader.wire Wire.string, ← FrameReader.wire Wire.string)

def readColumn (limit : Nat) (shared : Option (String × String)) (index : Nat) :
    FrameReader Column := do
  let (keyspace, table) ← readTable shared
  let name ← FrameReader.wire Wire.string
  let type ← (Descriptor.read limit).mapError FrameFault.descriptor
  return ⟨keyspace, table, name, index, type⟩

private def readFrom (limit : Nat) (shared : Option (String × String)) :
    Nat → Nat → Columns → FrameReader Columns
  | 0, _, done => pure done.reverse
  | n + 1, index, done => do
    let column ← readColumn limit shared index
    readFrom limit shared n (index + 1) (column :: done)

/-- Reads `count` columns. A count that the bytes cannot hold is refused at once. -/
def read (limit count : Nat) (shared : Option (String × String)) : FrameReader Columns := do
  let available := (← Reader.rest).length
  if count > available then throw (.tooManyColumns count available)
  readFrom limit shared count 0 []

private theorem readFrom_eq (limit : Nat) (shared : Option (String × String)) (n index : Nat)
    (done : Columns) :
    readFrom limit shared n index done = (do
      return done.reverse ++ (← (List.range' index n).mapM (readColumn limit shared))) := by
  induction n generalizing index done with
  | zero => simp [readFrom]
  | succ n ih => simp [readFrom, ih, List.range'_succ]

/-- The columns are read one by one, each with its position. -/
theorem read_eq (limit count : Nat) (shared : Option (String × String)) :
    read limit count shared = (do
      let bytes ← Reader.rest
      if count > bytes.length then throw (.tooManyColumns count bytes.length)
      else (List.range' 0 count).mapM (readColumn limit shared)) := by
  simp only [read, readFrom_eq, List.reverse_nil, List.nil_append, bind_pure]
  rfl

end Columns

end CqlClient
