import CqlClient.Proofs.Row.Draft

/-!
# Attempts at writing a cell

* `Attempt.cell?`: the cell that an attempt makes, if it makes one;
* `Attempt.atomic`: an attempt makes its cell, once, or else it does nothing;
* `CellWriter.tryAll_fresh`: of any number of attempts the first to make a cell decides.
-/

namespace CqlClient

/-- An attempt at writing a cell. A value built in pieces is finished or given up. -/
inductive Attempt where
  | null
  | unset
  | value (bytes : Bytes)
  | bound (encode : Value → Bytes × Except EncodeFault Unit) (v : Bound Value)
  | built (pieces : List Piece) (finished : Bool)

def Attempt.run : Attempt → CellWrite EncodeFault Unit
  | .null => CellWriter.writeNull.adaptExcept .cell
  | .unset => CellWriter.writeUnset.adaptExcept .cell
  | .value bytes => (CellWriter.writeValue bytes).adaptExcept .cell
  | .bound encode v => CellWriter.writeBound encode v
  | .built pieces finished => fun cell =>
    match cell.beginValue with
    | .error fault => .error (.cell fault) cell
    | .ok b =>
      match (b.addAll pieces).close finished with
      | .ok () cell => .ok () cell
      | .error fault cell => .error (.cell fault) cell

/-- The cell after all attempts, those that fail included. -/
def CellWriter.tryAll (cell : CellWriter) (attempts : List Attempt) : CellWriter :=
  attempts.foldl (fun cell attempt => stateLeft (attempt.run cell)) cell

namespace Attempt

def ofValue (bytes : Bytes) : Option (Bound Bytes) :=
  if bytes.length ≤ Wire.maxInt32 then some (.value bytes) else none

/-- The cell that the attempt makes of one not yet written. -/
def cell? : Attempt → Option (Bound Bytes)
  | null | bound _ .null => some .null
  | unset | bound _ .unset => some .unset
  | value bytes => ofValue bytes
  | bound encode (.value v) =>
    match encode v with
    | (bytes, .ok ()) => ofValue bytes
    | (_, .error _) => none
  | built pieces finished => if finished then (pieces.foldl Draft.add Draft.empty).cell? else none

/-- The cell that several attempts make: the first of them that makes one. -/
def firstCell? (attempts : List Attempt) : Option (Bound Bytes) := attempts.findSome? cell?

end Attempt

/-! ## What an attempt does to a cell -/

namespace CellWriter

variable {cell : CellWriter}

theorem writeNull_fresh (h : cell.consumed = false) :
    writeNull cell = .ok () (cell.filled .null) := by
  obtain ⟨row, consumed⟩ := cell
  cases h
  rfl

theorem writeUnset_fresh (h : cell.consumed = false) :
    writeUnset cell = .ok () (cell.filled .unset) := by
  obtain ⟨row, consumed⟩ := cell
  cases h
  rfl

theorem writeValue_fresh {bytes : Bytes} (h : cell.consumed = false)
    (hsize : bytes.length ≤ Wire.maxInt32) :
    writeValue bytes cell = .ok () (cell.filled (.value bytes)) := by
  obtain ⟨row, consumed⟩ := cell
  cases h
  have hbuffer : row.buffer ++ Bytes.ofNat 4 bytes.length ++ bytes =
      row.buffer ++ (Bytes.ofNat 4 bytes.length ++ bytes) :=
    congrArg RowWriter.buffer (row.append_append (Bytes.ofNat 4 bytes.length) bytes)
  simp only [writeValue, checkSize_of_le hsize]
  show EStateM.Result.ok () _ = _
  simp only [RowWriter.append, filled, Bound.cellBytes, Wire.writeBytes, ofInt32_ofNat hsize,
    hbuffer]

theorem writeValue_tooLarge {bytes : Bytes} (h : cell.consumed = false)
    (hsize : Wire.maxInt32 < bytes.length) :
    writeValue bytes cell = .error (.tooLarge ⟨bytes.length⟩) cell := by
  obtain ⟨row, consumed⟩ := cell
  cases h
  simp only [writeValue, checkSize_of_lt hsize]
  rfl

end CellWriter

namespace Attempt

variable {cell : CellWriter}

theorem ofValue_eq_some {bytes : Bytes} {made : Bound Bytes} :
    ofValue bytes = some made ↔ bytes.length ≤ Wire.maxInt32 ∧ .value bytes = made := by
  rw [ofValue, Option.ite_none_right_eq_some, Option.some.injEq]

theorem cell?_draft (bytes : Bytes) : (⟨none, bytes⟩ : Draft).cell? = ofValue bytes := by
  simp [Draft.cell?, ofValue]

theorem run_consumed (attempt : Attempt) (h : cell.consumed = true) :
    attempt.run cell = .error (.cell .alreadyWritten) cell := by
  obtain ⟨row, consumed⟩ := cell
  cases h
  cases attempt with
  | null => rfl
  | unset => rfl
  | value bytes => rfl
  | bound encode v => cases v <;> rfl
  | built pieces finished => rfl

theorem run_makes {attempt : Attempt} {made : Bound Bytes} (h : cell.consumed = false)
    (hmade : attempt.cell? = some made) : attempt.run cell = .ok () (cell.filled made) := by
  cases attempt with
  | null =>
    cases hmade
    rw [run, EStateM.adaptExcept, CellWriter.writeNull_fresh h]
  | unset =>
    cases hmade
    rw [run, EStateM.adaptExcept, CellWriter.writeUnset_fresh h]
  | value bytes =>
    obtain ⟨hsize, rfl⟩ := ofValue_eq_some.mp hmade
    rw [run, EStateM.adaptExcept, CellWriter.writeValue_fresh h hsize]
  | bound encode v =>
    cases v with
    | null =>
      cases hmade
      rw [run, CellWriter.writeBound, EStateM.adaptExcept, CellWriter.writeNull_fresh h]
    | unset =>
      cases hmade
      rw [run, CellWriter.writeBound, EStateM.adaptExcept, CellWriter.writeUnset_fresh h]
    | value v =>
      rw [cell?] at hmade
      split at hmade
      · rename_i bytes hencode
        rw [← cell?_draft] at hmade
        have hfinish := Draft.finish_builder _ cell hmade
        simp only [run, CellWriter.writeBound, Draft.beginValue_fresh cell h, hencode,
          Draft.append_empty, hfinish]
      · cases hmade
  | built pieces finished =>
    cases finished with
    | false => cases hmade
    | true =>
      have hfinish := Draft.finish_builder _ cell hmade
      simp only [run, Draft.beginValue_fresh cell h, Draft.addAll_builder, ValueBuilder.close,
        if_true, hfinish]

/-- An attempt that makes no cell leaves it as it was, whether it fails or is given up. -/
theorem run_none {attempt : Attempt} (h : cell.consumed = false) (hnone : attempt.cell? = none) :
    stateLeft (attempt.run cell) = cell := by
  cases attempt with
  | null => cases hnone
  | unset => cases hnone
  | value bytes =>
    rw [cell?, ofValue] at hnone
    split at hnone
    · cases hnone
    · rename_i hsize
      rw [run, EStateM.adaptExcept, CellWriter.writeValue_tooLarge h (Nat.not_le.mp hsize),
        stateLeft]
  | bound encode v =>
    cases v with
    | null => cases hnone
    | unset => cases hnone
    | value v =>
      rw [cell?] at hnone
      split at hnone
      · rename_i bytes hencode
        rw [← cell?_draft] at hnone
        obtain ⟨fault, hfinish⟩ := Draft.finish_builder_none _ cell hnone
        simp only [run, CellWriter.writeBound, Draft.beginValue_fresh cell h, hencode,
          Draft.append_empty, hfinish, stateLeft]
      · rename_i bytes fault hencode
        simp only [run, CellWriter.writeBound, Draft.beginValue_fresh cell h, hencode,
          Draft.append_empty, Draft.drop_builder, stateLeft]
  | built pieces finished =>
    cases finished with
    | false =>
      simp only [run, Draft.beginValue_fresh cell h, Draft.addAll_builder, ValueBuilder.close,
        Bool.false_eq_true, if_false, Draft.drop_builder, stateLeft]
    | true =>
      obtain ⟨fault, hfinish⟩ := Draft.finish_builder_none _ cell hnone
      simp only [run, Draft.beginValue_fresh cell h, Draft.addAll_builder, ValueBuilder.close,
        if_true, hfinish, stateLeft]

theorem cell?_sized {attempt : Attempt} {made : Bound Bytes}
    (h : attempt.cell? = some made) : made.Sized := by
  have hvalue : ∀ bytes : Bytes, ofValue bytes = some made → made.Sized := by
    intro bytes hsome
    obtain ⟨hsize, rfl⟩ := ofValue_eq_some.mp hsome
    exact hsize
  cases attempt with
  | null => cases h; trivial
  | unset => cases h; trivial
  | value bytes => exact hvalue bytes h
  | bound encode v =>
    cases v with
    | null => cases h; trivial
    | unset => cases h; trivial
    | value v =>
      rw [cell?] at h
      split at h
      · rename_i bytes hencode
        exact hvalue bytes h
      · cases h
  | built pieces finished =>
    cases finished with
    | false => cases h
    | true =>
      obtain ⟨⟨_, hsize⟩, rfl⟩ := Draft.cell?_eq_some.mp h
      exact hsize

/-- What an attempt may do to a cell: make it, once, or else nothing. -/
structure Atomic (attempt : Attempt) (cell : CellWriter) : Prop where
  refused : cell.consumed = true → attempt.run cell = .error (.cell .alreadyWritten) cell
  makes : cell.consumed = false → ∀ made, attempt.cell? = some made →
    attempt.run cell = .ok () (cell.filled made)
  leaves : cell.consumed = false → attempt.cell? = none → stateLeft (attempt.run cell) = cell
  failed : ∀ fault left, attempt.run cell = .error fault left → left = cell

theorem atomic (attempt : Attempt) (cell : CellWriter) : attempt.Atomic cell := by
  refine ⟨attempt.run_consumed, fun h made hmade => run_makes h hmade, run_none, ?_⟩
  intro fault left hfailed
  cases h : cell.consumed with
  | true =>
    rw [attempt.run_consumed h] at hfailed
    cases hfailed
    rfl
  | false =>
    cases hmade : attempt.cell? with
    | some made =>
      rw [run_makes h hmade] at hfailed
      cases hfailed
    | none =>
      have hleft := run_none h hmade
      rw [hfailed] at hleft
      exact hleft

end Attempt

/-! ## Several attempts -/

namespace CellWriter

variable {cell : CellWriter}

theorem tryAll_consumed (attempts : List Attempt) (h : cell.consumed = true) :
    cell.tryAll attempts = cell := by
  induction attempts with
  | nil => rfl
  | cons attempt attempts ih =>
    rw [tryAll, List.foldl_cons, attempt.run_consumed h]
    exact ih

/-- The first attempt that makes the cell decides, and those before and after leave no trace. -/
theorem tryAll_fresh (attempts : List Attempt) (h : cell.consumed = false) :
    cell.tryAll attempts = (Attempt.firstCell? attempts).elim cell cell.filled := by
  induction attempts with
  | nil => rfl
  | cons attempt attempts ih =>
    rw [tryAll, List.foldl_cons, Attempt.firstCell?, List.findSome?_cons]
    cases hmade : attempt.cell? with
    | some made =>
      rw [Attempt.run_makes h hmade]
      exact tryAll_consumed attempts rfl
    | none =>
      rw [Attempt.run_none h hmade]
      exact ih

end CellWriter

end CqlClient
