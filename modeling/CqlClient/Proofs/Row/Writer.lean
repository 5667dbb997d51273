import CqlClient.Proofs.Row.Attempt

/-!
# Rows written cell by cell

* `RowWriter.fill_holds`: after any attempts at any number of cells the row holds whole cells;
* `RowWriter.pending_fill_eq_zero`: and knows whether one of them is missing;
* `RowWriter.finalize_eq`: a row with all its cells is finished behind their count.
-/

namespace CqlClient

/-- The row after attempts at one cell after the other. -/
def RowWriter.fill (row : RowWriter) (cells : List (List Attempt)) : RowWriter :=
  cells.foldl (fun row attempts => (row.cell.tryAll attempts).close) row

namespace RowWriter

/-- The row is made of whole cells, and of nothing else. -/
structure Holds (row : RowWriter) (cells : List (Bound Bytes)) : Prop where
  buffer : row.buffer.toList = [0, 0] ++ cellsBytes cells
  count : row.valueCount = cells.length

theorem new_holds : new.Holds [] := ⟨rfl, rfl⟩

variable {row : RowWriter}

theorem consumed_tryAll (row : RowWriter) (attempts : List Attempt) :
    (row.cell.tryAll attempts).consumed = (Attempt.firstCell? attempts).isSome := by
  rw [CellWriter.tryAll_fresh attempts rfl]
  cases Attempt.firstCell? attempts <;> rfl

theorem close_of_made {attempts : List Attempt} {made : Bound Bytes}
    (h : Attempt.firstCell? attempts = some made) :
    (row.cell.tryAll attempts).close = (row.cell.filled made).row := by
  rw [CellWriter.tryAll_fresh attempts rfl, h]
  rfl

theorem close_of_unmade {attempts : List Attempt} (h : Attempt.firstCell? attempts = none) :
    (row.cell.tryAll attempts).close = { row with pending := row.pending + 1 } := by
  rw [CellWriter.tryAll_fresh attempts rfl, h]
  rfl

theorem Holds.filled {cells : List (Bound Bytes)} (h : row.Holds cells) (made : Bound Bytes) :
    (row.cell.filled made).row.Holds (cells ++ [made]) := by
  constructor
  · show (row.append made.cellBytes).buffer.toList = _
    rw [toList_append, h.buffer, cellsBytes_append]
    simp
  · show row.valueCount + 1 = _
    rw [h.count, List.length_append]
    rfl

theorem fill_cons (row : RowWriter) (attempts : List Attempt) (rest : List (List Attempt)) :
    row.fill (attempts :: rest) = (row.cell.tryAll attempts).close.fill rest := rfl

theorem fill_holds {done : List (Bound Bytes)} (h : row.Holds done)
    (cells : List (List Attempt)) :
    (row.fill cells).Holds (done ++ cells.filterMap Attempt.firstCell?) := by
  induction cells generalizing row done with
  | nil =>
    rw [List.filterMap_nil, List.append_nil]
    exact h
  | cons attempts rest ih =>
    rw [fill_cons, List.filterMap_cons]
    cases hmade : Attempt.firstCell? attempts with
    | none =>
      rw [close_of_unmade hmade]
      exact ih ⟨h.buffer, h.count⟩
    | some made =>
      rw [close_of_made hmade]
      have hrest := ih (h.filled made)
      rwa [List.append_assoc] at hrest

/-- The cells given up unwritten are those that no attempt makes. -/
theorem pending_fill (row : RowWriter) (cells : List (List Attempt)) :
    (row.fill cells).pending =
      row.pending + cells.countP (fun attempts => (Attempt.firstCell? attempts).isNone) := by
  induction cells generalizing row with
  | nil => rfl
  | cons attempts rest ih =>
    rw [fill_cons, ih]
    cases hmade : Attempt.firstCell? attempts with
    | none =>
      rw [close_of_unmade hmade]
      simp [hmade]
      omega
    | some made =>
      rw [close_of_made hmade]
      simp [hmade, CellWriter.filled, append, cell]

/-! ## The finished row -/

theorem finalize_eq {cells : List (Bound Bytes)} (h : row.Holds cells) (hpending : row.pending = 0)
    (hcount : cells.length ≤ Wire.maxUInt16) :
    row.finalize =
      .ok ⟨Bytes.ofNat 2 cells.length ++ cellsBytes cells, UInt16.ofNat cells.length⟩ := by
  have hnumber : Bytes.ofUInt16 (UInt16.ofNat cells.length) = Bytes.ofNat 2 cells.length := by
    rw [Bytes.ofUInt16, toNat_uint16_ofNat hcount]
  have hprefixed : (overwrite row.buffer 0 (Bytes.ofNat 2 cells.length)).toList =
      Bytes.ofNat 2 cells.length ++ cellsBytes cells := by
    have hlength : (Bytes.ofNat 2 cells.length).length = [(0 : UInt8), 0].length :=
      Bytes.length_ofNat 2 _
    exact @toList_overwrite row.buffer [] [0, 0] _ _ h.buffer hlength
  have hfull : ¬ row.pending > 0 := by omega
  have hfew : ¬ cells.length > Wire.maxUInt16 := by omega
  simp only [finalize, h.count, hnumber, hprefixed, hfull, hfew, if_false]

theorem finalize_ok_iff {cells : List (Bound Bytes)} (h : row.Holds cells) :
    (∃ bound, row.finalize = .ok bound) ↔
      row.pending = 0 ∧ cells.length ≤ Wire.maxUInt16 := by
  constructor
  · rintro ⟨bound, hbound⟩
    simp only [finalize, h.count] at hbound
    split at hbound
    · cases hbound
    · split at hbound
      · cases hbound
      · omega
  · rintro ⟨hpending, hcount⟩
    exact ⟨_, finalize_eq h hpending hcount⟩

theorem Holds.toList_finalize {cells : List (Bound Bytes)} (h : row.Holds cells)
    (hsized : ∀ cell ∈ cells, cell.Sized) {bound : BoundRow} (hbound : row.finalize = .ok bound) :
    bound.bytes = Bytes.ofNat 2 cells.length ++ cellsBytes cells ∧
      bound.count.toNat = cells.length ∧ bound.toList = cells := by
  obtain ⟨hpending, hcount⟩ := (finalize_ok_iff h).mp ⟨bound, hbound⟩
  rw [finalize_eq h hpending hcount] at hbound
  cases hbound
  refine ⟨rfl, toNat_uint16_ofNat hcount, ?_⟩
  have hcells : (Bytes.ofNat 2 cells.length ++ cellsBytes cells).drop 2 = cellsBytes cells :=
    List.drop_left' (Bytes.length_ofNat 2 _)
  rw [BoundRow.toList, BoundRow.cells, hcells, BoundRow.readCells_cellBytes hsized]
  rfl

theorem filterMap_sized {cells : List (List Attempt)} :
    ∀ made ∈ cells.filterMap Attempt.firstCell?, made.Sized := by
  intro made hmade
  obtain ⟨attempts, -, hfirst⟩ := List.mem_filterMap.mp hmade
  obtain ⟨attempt, -, hcell⟩ := List.exists_of_findSome?_eq_some hfirst
  exact Attempt.cell?_sized hcell

/-- No cell is given up unwritten exactly when each of them is consumed at its turn. -/
theorem pending_fill_eq_zero (cells : List (List Attempt)) :
    (new.fill cells).pending = 0 ↔ ∀ front attempts back, cells = front ++ attempts :: back →
      ((new.fill front).cell.tryAll attempts).consumed = true := by
  have hpending : (new.fill cells).pending = 0 ↔
      ∀ attempts ∈ cells, (Attempt.firstCell? attempts).isSome = true := by
    rw [pending_fill, show new.pending = 0 from rfl, Nat.zero_add, List.countP_eq_zero]
    simp [Option.isSome_iff_ne_none]
  rw [hpending]
  constructor
  · intro h front attempts back hcells
    rw [consumed_tryAll]
    exact h attempts (by simp [hcells])
  · intro h attempts hmem
    obtain ⟨front, back, hcells⟩ := List.append_of_mem hmem
    have hconsumed := h front attempts back hcells
    rwa [consumed_tryAll] at hconsumed

theorem length_filterMap {cells : List (List Attempt)} (h : (new.fill cells).pending = 0) :
    (cells.filterMap Attempt.firstCell?).length = cells.length := by
  rw [pending_fill, show new.pending = 0 from rfl, Nat.zero_add] at h
  rw [List.length_filterMap_eq_countP, List.countP_eq_length]
  rw [List.countP_eq_zero] at h
  intro attempts hmem
  have hmade := h attempts hmem
  rwa [Bool.not_eq_true, Option.isNone_eq_false_iff] at hmade

/-- Whatever is attempted at whichever cells, the row holds the place for the count and then the
cells that were made, each by the one attempt that consumed it. It can be finished exactly when
all cells are consumed and can be counted, and its cells are then read back. -/
theorem fill_whole_cells (cells : List (List Attempt)) :
    let row := new.fill cells
    let made := cells.filterMap Attempt.firstCell?
    row.buffer.toList = [0, 0] ++ (made.map Bound.cellBytes).flatten ∧
    row.valueCount = made.length ∧
    (∀ attempts,
      row.cell.tryAll attempts = (Attempt.firstCell? attempts).elim row.cell row.cell.filled ∧
      ∀ attempt : Attempt, attempt.Atomic (row.cell.tryAll attempts)) ∧
    (∀ (piece : Piece) b fault left, piece.run b = .error fault left → left = b) ∧
    ((∃ bound, row.finalize = .ok bound) ↔
      (∀ front attempts back, cells = front ++ attempts :: back →
        ((new.fill front).cell.tryAll attempts).consumed = true) ∧ cells.length ≤ 65535) ∧
    ∀ bound, row.finalize = .ok bound →
      bound.bytes = Bytes.ofNat 2 cells.length ++ (made.map Bound.cellBytes).flatten ∧
      bound.count.toNat = cells.length ∧ bound.toList = made ∧ made.length = cells.length := by
  intro row made
  have hholds : row.Holds made := fill_holds new_holds cells
  refine ⟨hholds.buffer, hholds.count, ?_, ?_, ?_, ?_⟩
  · intro attempts
    exact ⟨CellWriter.tryAll_fresh attempts rfl, fun attempt => attempt.atomic _⟩
  · intro piece b fault left hfailed
    exact ValueBuilder.run_failed b piece hfailed
  · rw [finalize_ok_iff hholds, ← pending_fill_eq_zero cells]
    constructor
    · rintro ⟨hpending, hcount⟩
      rw [length_filterMap hpending] at hcount
      exact ⟨hpending, hcount⟩
    · rintro ⟨hpending, hcount⟩
      rw [length_filterMap hpending]
      exact ⟨hpending, hcount⟩
  · intro bound hbound
    have hlength := length_filterMap ((finalize_ok_iff hholds).mp ⟨bound, hbound⟩).1
    obtain ⟨hbytes, hcount, hlist⟩ := hholds.toList_finalize filterMap_sized hbound
    rw [hlength] at hbytes hcount
    exact ⟨hbytes, hcount, hlist, hlength⟩

/-- A value of a wrong size, one given up and one declared twice; a value whose encoding fails half
way; a cell that is written twice. -/
def threeCells : List (List Attempt) :=
  [[.built [.declare 4, .append [1]] true, .built [.append [9]] false,
      .built [.declare 1, .declare 2, .append [1], .append [2, 3], .append [4]] true, .null],
    [.bound (fun _ => ([7, 7], .error (.unknownField "item" "tags"))) (.value (.blob [])), .unset],
    [.value [], .value [5]]]

theorem fill_whole_cells_of_three :
    (new.fill threeCells).finalize =
      .ok ⟨[0, 3, 0, 0, 0, 2, 1, 4, 255, 255, 255, 254, 0, 0, 0, 0], 3⟩ ∧
    BoundRow.toList ⟨[0, 3, 0, 0, 0, 2, 1, 4, 255, 255, 255, 254, 0, 0, 0, 0], 3⟩ =
      [.value [1, 4], .unset, .value []] := by
  obtain ⟨_, _, _, _, _, hread⟩ := fill_whole_cells threeCells
  have hrow : (new.fill threeCells).finalize =
      .ok ⟨[0, 3, 0, 0, 0, 2, 1, 4, 255, 255, 255, 254, 0, 0, 0, 0], 3⟩ := rfl
  exact ⟨hrow, (hread _ hrow).2.2.1⟩

end RowWriter

end CqlClient
