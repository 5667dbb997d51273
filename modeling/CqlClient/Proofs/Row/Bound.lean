import CqlClient.Proofs.Fronts
import CqlClient.Row.Bound

/-!
# The cells of a row read back

* `reads_readCell`: a cell is read from the bytes that stand for it;
* `readCells_cellBytes`: cells written one after the other are read as they are, to the last.
-/

namespace CqlClient

/-- The bytes of the cells, one after the other. -/
def cellsBytes (cells : List (Bound Bytes)) : Bytes := (cells.map Bound.cellBytes).flatten

@[simp] theorem cellsBytes_nil : cellsBytes [] = [] := rfl

@[simp] theorem cellsBytes_cons (cell : Bound Bytes) (cells : List (Bound Bytes)) :
    cellsBytes (cell :: cells) = cell.cellBytes ++ cellsBytes cells := by
  simp [cellsBytes]

@[simp] theorem cellsBytes_append (front back : List (Bound Bytes)) :
    cellsBytes (front ++ back) = cellsBytes front ++ cellsBytes back := by
  simp [cellsBytes]

/-- A value is not longer than its length can say. -/
def Bound.Sized : Bound Bytes → Prop
  | .value bytes => bytes.length ≤ Wire.maxInt32
  | .null | .unset => True

namespace BoundRow

theorem reads_readCell {cell : Bound Bytes} (h : cell.Sized) :
    Reads readCell cell.cellBytes cell := by
  cases cell with
  | null => exact (reads_int32 (-1)).bind_nil (reads_pure _)
  | unset => exact (reads_int32 (-2)).bind_nil (reads_pure _)
  | value bytes =>
    rw [Bound.cellBytes, Wire.writeBytes, ← ofInt32_ofNat h]
    refine (reads_int32 _).bind ?_
    have hpos := not_int32_ofNat_neg h
    have hunset : Int32.ofNat bytes.length ≠ -2 := by
      intro heq
      rw [heq] at hpos
      exact hpos (by decide)
    rw [if_neg hunset, if_neg hpos, toInt_int32_ofNat h]
    exact (reads_raw rfl).map Bound.value

theorem cellBytes_ne_nil (cell : Bound Bytes) : cell.cellBytes ≠ [] := by
  cases cell with
  | null => decide
  | unset => decide
  | value bytes =>
    intro h
    have hlength := congrArg List.length h
    simp [Bound.cellBytes, Wire.writeBytes, Bytes.length_ofNat] at hlength

theorem nextCell_cellBytes {cell : Bound Bytes} (h : cell.Sized) (rest : Bytes) :
    nextCell (cell.cellBytes ++ rest) = some (cell, rest) := by
  have hfull : (cell.cellBytes ++ rest).isEmpty = false := by
    simp [cellBytes_ne_nil cell]
  rw [nextCell, hfull, reads_readCell h rest]
  rfl

theorem readCells_cellBytes {cells : List (Bound Bytes)} (h : ∀ cell ∈ cells, cell.Sized)
    (done : List (Bound Bytes)) : readCells done (cellsBytes cells) = done.reverse ++ cells := by
  induction cells generalizing done with
  | nil =>
    rw [readCells]
    simp [nextCell]
  | cons cell cells ih =>
    have hfirst := nextCell_cellBytes (h cell (List.mem_cons_self ..)) (cellsBytes cells)
    have hrest := ih (fun c hc => h c (List.mem_cons_of_mem _ hc)) (cell :: done)
    rw [cellsBytes_cons, readCells]
    split
    · rename_i first rest hnext
      rw [hfirst] at hnext
      cases hnext
      simpa using hrest
    · rename_i hnext
      rw [hfirst] at hnext
      cases hnext

end BoundRow

end CqlClient
