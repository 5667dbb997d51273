import CqlClient.Proofs.Row.Bound
import CqlClient.Row.Writer

/-!
# Values built piece by piece

A value is built in the buffer of its row, behind a place for its length. A `Draft` is the value
apart from any buffer, and `Draft.builder` is how it stands there.

* `Draft.addAll_builder`: pieces do to the buffer what they do to the draft;
* `Draft.finish_builder` and `Draft.finish_builder_none`: a whole value becomes the cell;
* `Draft.drop_builder`: of any other nothing stays.
-/

namespace CqlClient

/-! ## Pieces -/

/-- A step in building a value. -/
inductive Piece where
  | declare (size : Nat)
  | append (bytes : Bytes)

/-- What is left of a state, whether there is a result or not. -/
def stateLeft {ε σ α : Type} : EStateM.Result ε σ α → σ
  | .ok _ state => state
  | .error _ state => state

def Piece.run : Piece → EStateM CellFault ValueBuilder Unit
  | .declare size => ValueBuilder.setSize size
  | .append bytes => ValueBuilder.appendBytes bytes

/-- The builder after all pieces, those refused included. -/
def ValueBuilder.addAll (b : ValueBuilder) (pieces : List Piece) : ValueBuilder :=
  pieces.foldl (fun b piece => stateLeft (piece.run b)) b

def ValueBuilder.close (b : ValueBuilder) (finished : Bool) :
    EStateM.Result CellFault CellWriter Unit :=
  if finished then b.finish else .ok () b.drop

/-- A value built in pieces, apart from any buffer. -/
structure Draft where
  declared : Option Nat
  content : Bytes

namespace Draft

def empty : Draft := ⟨none, []⟩

/-- A piece counts unless it passes the declared size or the limit of any value. -/
def add (d : Draft) : Piece → Draft
  | .declare size => if size ≤ Wire.maxInt32 then { d with declared := some size } else d
  | .append bytes =>
    let size := d.content.length + bytes.length
    if (∀ n ∈ d.declared, size ≤ n) ∧ size ≤ Wire.maxInt32 then
      { d with content := d.content ++ bytes }
    else d

/-- Only a value of the declared size is one. -/
def cell? (d : Draft) : Option (Bound Bytes) :=
  let size := d.content.length
  if (∀ n ∈ d.declared, n = size) ∧ size ≤ Wire.maxInt32 then some (.value d.content) else none

end Draft

/-! ## The buffer -/

@[simp] theorem length_ofInt32 (n : Int32) : (Bytes.ofInt32 n).length = 4 :=
  Bytes.length_ofNat 4 _

theorem toList_overwrite {buffer : Array UInt8} {front old new back : Bytes}
    (hbuffer : buffer.toList = front ++ old ++ back) (hlength : new.length = old.length) :
    (overwrite buffer front.length new).toList = front ++ new ++ back := by
  induction new generalizing buffer front old with
  | nil =>
    rw [List.length_eq_zero_iff.mp hlength.symm] at hbuffer
    exact hbuffer
  | cons b new ih =>
    cases old with
    | nil => simp at hlength
    | cons a old =>
      have hset : (buffer.setIfInBounds front.length b).toList = front ++ [b] ++ old ++ back := by
        simp [hbuffer]
      have hrest := ih hset (by simpa using hlength)
      simpa [overwrite] using hrest

namespace RowWriter

@[simp] theorem append_nil (row : RowWriter) : row.append [] = row := by
  simp [append]

@[simp] theorem toList_append (row : RowWriter) (bytes : Bytes) :
    (row.append bytes).buffer.toList = row.buffer.toList ++ bytes := by
  simp [append]

@[simp] theorem append_append (row : RowWriter) (front back : Bytes) :
    (row.append front).append back = row.append (front ++ back) := by
  have h : row.buffer ++ front ++ back = row.buffer ++ (front ++ back) := by
    apply Array.ext'
    simp
  simp only [append, h]

end RowWriter

namespace CellWriter

/-- The cell once it is made. -/
def filled (cell : CellWriter) (made : Bound Bytes) : CellWriter :=
  ⟨{ cell.row.append made.cellBytes with valueCount := cell.row.valueCount + 1 }, true⟩

end CellWriter

/-! ## The steps of a builder -/

theorem checkSize_of_le {size : Nat} (h : size ≤ Wire.maxInt32) :
    checkSize size = .ok (Int32.ofNat size) := if_pos h

theorem checkSize_of_lt {size : Nat} (h : Wire.maxInt32 < size) :
    checkSize size = .error (.tooLarge ⟨size⟩) := if_neg (Nat.not_le.mpr h)

namespace ValueBuilder

variable (b : ValueBuilder) (bytes : Bytes)

theorem appendBytes_fits (hdeclared : ∀ n ∈ b.declared, b.written + bytes.length ≤ n)
    (hsize : b.written + bytes.length ≤ Wire.maxInt32) :
    appendBytes bytes b = .ok () (b.append bytes) := by
  have hfilter : b.declared.filter (b.written + bytes.length > ·) = none := by
    rw [Option.filter_eq_none_iff]
    simpa using hdeclared
  simp only [appendBytes, hfilter, checkSize_of_le hsize]

theorem appendBytes_refused
    (h : ¬ ((∀ n ∈ b.declared, b.written + bytes.length ≤ n) ∧
      b.written + bytes.length ≤ Wire.maxInt32)) :
    ∃ fault, appendBytes bytes b = .error fault b := by
  simp only [appendBytes]
  split
  · exact ⟨_, rfl⟩
  · rename_i hfilter
    rw [Option.filter_eq_none_iff] at hfilter
    have hsize : Wire.maxInt32 < b.written + bytes.length := by
      rw [not_and, Nat.not_le] at h
      exact h (by simpa using hfilter)
    rw [checkSize_of_lt hsize]
    exact ⟨_, rfl⟩

theorem finish_whole (hdeclared : ∀ n ∈ b.declared, n = b.written)
    (hsize : b.written ≤ Wire.maxInt32) :
    b.finish = .ok () (b.commit (Int32.ofNat b.written)) := by
  have hfilter : b.declared.filter (· ≠ b.written) = none := by
    rw [Option.filter_eq_none_iff]
    simpa using hdeclared
  simp only [finish, hfilter, checkSize_of_le hsize]

theorem finish_partial
    (h : ¬ ((∀ n ∈ b.declared, n = b.written) ∧ b.written ≤ Wire.maxInt32)) :
    ∃ fault, b.finish = .error fault b.drop := by
  simp only [finish]
  split
  · exact ⟨_, rfl⟩
  · rename_i hfilter
    rw [Option.filter_eq_none_iff] at hfilter
    have hsize : Wire.maxInt32 < b.written := by
      rw [not_and, Nat.not_le] at h
      exact h (by simpa using hfilter)
    rw [checkSize_of_lt hsize]
    exact ⟨_, rfl⟩

/-- A piece that is refused leaves no trace. -/
theorem run_failed (piece : Piece) {next : ValueBuilder} {fault : CellFault}
    (h : piece.run b = .error fault next) : next = b := by
  cases piece with
  | declare size =>
    simp only [Piece.run, setSize] at h
    split at h
    · cases h
    · cases h
      rfl
  | append bytes =>
    simp only [Piece.run, appendBytes] at h
    split at h
    · cases h
      rfl
    · split at h
      · cases h
      · cases h
        rfl

end ValueBuilder

/-! ## Drafts in the buffer -/

namespace Draft

/-- The value as it stands in the buffer of a row, behind a place for its length. -/
def builder (d : Draft) (cell : CellWriter) : ValueBuilder :=
  ⟨{ cell with row := cell.row.append (Bytes.ofInt32 (-3) ++ d.content) },
    cell.row.buffer.size, d.declared⟩

variable (d : Draft) (cell : CellWriter)

theorem written_builder : (d.builder cell).written = d.content.length := by
  have hsize : (cell.row.append (Bytes.ofInt32 (-3) ++ d.content)).buffer.size =
      cell.row.buffer.size + (4 + d.content.length) := by
    rw [← Array.length_toList, RowWriter.toList_append]
    simp only [List.length_append, Array.length_toList, length_ofInt32]
  simp only [builder, ValueBuilder.written, hsize]
  omega

theorem append_builder (bytes : Bytes) :
    (d.builder cell).append bytes =
      ({ d with content := d.content ++ bytes } : Draft).builder cell := by
  simp [builder, ValueBuilder.append]

/-- A value whose bytes all come at once. -/
theorem append_empty (bytes : Bytes) :
    (empty.builder cell).append bytes = (⟨none, bytes⟩ : Draft).builder cell :=
  append_builder empty cell bytes

theorem drop_builder : (d.builder cell).drop = cell := by
  have h : (cell.row.buffer ++ (Bytes.ofInt32 (-3) ++ d.content)).shrink cell.row.buffer.size =
      cell.row.buffer := by
    apply Array.ext'
    simp
  simp only [builder, ValueBuilder.drop, RowWriter.append, h]

theorem commit_builder (h : d.content.length ≤ Wire.maxInt32) :
    (d.builder cell).commit (Int32.ofNat d.content.length) = cell.filled (.value d.content) := by
  have hlength : (Bytes.ofInt32 (Int32.ofNat d.content.length)).length =
      (Bytes.ofInt32 (-3)).length := by rw [length_ofInt32, length_ofInt32]
  have hbuffer : (cell.row.append (Bytes.ofInt32 (-3) ++ d.content)).buffer.toList =
      cell.row.buffer.toList ++ Bytes.ofInt32 (-3) ++ d.content := by
    rw [RowWriter.toList_append, List.append_assoc]
  have hplaced : overwrite (cell.row.append (Bytes.ofInt32 (-3) ++ d.content)).buffer
      cell.row.buffer.size (Bytes.ofInt32 (Int32.ofNat d.content.length)) =
      (cell.row.append (Bound.cellBytes (.value d.content))).buffer := by
    have hnew := toList_overwrite hbuffer hlength
    rw [Array.length_toList] at hnew
    apply Array.ext'
    rw [hnew, ofInt32_ofNat h, RowWriter.toList_append, Bound.cellBytes, Wire.writeBytes,
      List.append_assoc]
  simp only [builder, ValueBuilder.commit, CellWriter.filled]
  rw [hplaced]
  simp only [RowWriter.append]

theorem declared_builder : (d.builder cell).declared = d.declared := rfl

theorem beginValue_fresh (h : cell.consumed = false) :
    cell.beginValue = .ok (empty.builder cell) := by
  rw [CellWriter.beginValue, h, if_neg Bool.false_ne_true]
  simp [builder, empty, h]

/-- A piece does to the buffer what it does to the value. -/
theorem stateLeft_run (piece : Piece) :
    stateLeft (piece.run (d.builder cell)) = (d.add piece).builder cell := by
  cases piece with
  | declare size =>
    by_cases h : size ≤ Wire.maxInt32
    · simp [Piece.run, ValueBuilder.setSize, checkSize, h, stateLeft, add, builder]
    · simp [Piece.run, ValueBuilder.setSize, checkSize, h, stateLeft, add]
  | append bytes =>
    by_cases h : (∀ n ∈ d.declared, d.content.length + bytes.length ≤ n) ∧
        d.content.length + bytes.length ≤ Wire.maxInt32
    · have hrun := ValueBuilder.appendBytes_fits (d.builder cell) bytes
      rw [written_builder, declared_builder] at hrun
      rw [Piece.run, hrun h.1 h.2, stateLeft, append_builder, add, if_pos h]
    · have hrun := ValueBuilder.appendBytes_refused (d.builder cell) bytes
      rw [written_builder, declared_builder] at hrun
      obtain ⟨fault, hfault⟩ := hrun h
      rw [Piece.run, hfault, stateLeft, add, if_neg h]

theorem addAll_builder (pieces : List Piece) :
    (d.builder cell).addAll pieces = (pieces.foldl add d).builder cell := by
  induction pieces generalizing d with
  | nil => rfl
  | cons piece pieces ih =>
    rw [List.foldl_cons, ← ih, ValueBuilder.addAll, List.foldl_cons, stateLeft_run]
    rfl

theorem cell?_eq_some {d : Draft} {made : Bound Bytes} : d.cell? = some made ↔
    ((∀ n ∈ d.declared, n = d.content.length) ∧ d.content.length ≤ Wire.maxInt32) ∧
      .value d.content = made := by
  rw [cell?, Option.ite_none_right_eq_some, Option.some.injEq]

theorem finish_builder {made : Bound Bytes} (h : d.cell? = some made) :
    (d.builder cell).finish = .ok () (cell.filled made) := by
  obtain ⟨⟨hdeclared, hsize⟩, rfl⟩ := cell?_eq_some.mp h
  have hfinish := ValueBuilder.finish_whole (d.builder cell)
  rw [written_builder, declared_builder] at hfinish
  rw [hfinish hdeclared hsize, commit_builder d cell hsize]

theorem finish_builder_none (h : d.cell? = none) :
    ∃ fault, (d.builder cell).finish = .error fault cell := by
  rw [cell?] at h
  split at h
  · cases h
  · rename_i hpartial
    have hfinish := ValueBuilder.finish_partial (d.builder cell)
    rw [written_builder, declared_builder, drop_builder] at hfinish
    exact hfinish hpartial

end Draft

end CqlClient
