import CqlClient.Value
import CqlClient.Wire

/-!
Rows of bound values as they are sent: a 16-bit count, then each value behind its length. Null and
unset have lengths of their own.
-/

namespace CqlClient

structure BoundRow where
  /-- The count, then the cells. -/
  bytes : Bytes
  count : UInt16
  deriving DecidableEq

namespace BoundRow

def empty : BoundRow := ⟨[0, 0], 0⟩

def isEmpty (row : BoundRow) : Bool := row.count == 0

/-- The cells, without the count. -/
def cells (row : BoundRow) : Bytes := row.bytes.drop 2

def readCell : Wire.WireReader (Bound Bytes) := do
  let length ← Wire.int32
  if length = -2 then return .unset
  else if length < 0 then return .null
  else return .value (← Wire.raw length.toInt.toNat)

/-- The first of several cells and what follows it, if it can be read. -/
def nextCell (bytes : Bytes) : Option (Bound Bytes × Bytes) :=
  if bytes.isEmpty then none
  else match readCell bytes with
    | .ok cell rest => some (cell, rest)
    | .error _ _ => none

theorem consumes_readCell : readCell.Consumes 4 := by
  have hlength : Reader.Consumes 4 Wire.int32 :=
    (Reader.consumes_exactly _ 4).bind fun _ => Reader.consumes_pure _
  refine hlength.bind (n := 0) fun length => ?_
  split
  · exact Reader.consumes_pure _
  · split
    · exact Reader.consumes_pure _
    · have hvalue := (Reader.consumes_exactly WireFault.endOfInput length.toInt.toNat).bind
        fun bytes => Reader.consumes_pure (Bound.value bytes)
      exact hvalue.mono (Nat.zero_le _)

theorem nextCell_shortens {bytes rest : Bytes} {cell : Bound Bytes}
    (h : nextCell bytes = some (cell, rest)) : rest.length < bytes.length := by
  rw [nextCell] at h
  split at h
  · cases h
  · split at h
    · rename_i hread
      cases h
      have hlength := consumes_readCell _ _ _ hread
      omega
    · cases h

/-- The cells that follow those read already, which are `done`, the last one first. -/
def readCells (done : List (Bound Bytes)) (bytes : Bytes) : List (Bound Bytes) :=
  match _ : nextCell bytes with
  | some (cell, rest) => readCells (cell :: done) rest
  | none => done.reverse
termination_by bytes.length
decreasing_by exact nextCell_shortens ‹_›

/-- The cells of a row, in order, up to the first that cannot be read. -/
def toList (row : BoundRow) : List (Bound Bytes) := readCells [] row.cells

end BoundRow

/-- A cell as it is written in a row. -/
def Bound.cellBytes : Bound Bytes → Bytes
  | .value bytes => Wire.writeBytes bytes
  | .null => Wire.null
  | .unset => Wire.unset

end CqlClient
