import CqlClient.Proofs.Codec.RoundTrip
import CqlClient.Proofs.Row.Writer
import CqlClient.Row.Decode
import Mathlib.Data.List.Forall2

/-!
# Bound rows, read as rows of a result

What is bound to columns is laid out as a row of the same columns is, so that it can be read as one.

* `BoundRow.cells_of_bind`: a row that could be bound holds what each of its values becomes;
* `Row.reads_frameCells`, `Row.decodeCells_eq_ok`: reading takes the same cells apart, then decodes
  each of them by its own column;
* `Row.read_of_bind`: the values that are read are those that were bound, as their columns name
  them.
-/

namespace CqlClient

/-- The cell that a bound value is written as. -/
inductive Bound.Becomes (r : Registry) (type : Option CqlType) : Bound Value → Bound Bytes → Prop
  | null : Becomes r type .null .null
  | unset : Becomes r type .unset .unset
  | value {v : Value} {bytes : Bytes} (encoded : r.encode v type = .ok bytes)
      (short : bytes.length ≤ Wire.maxInt32) : Becomes r type (.value v) (.value bytes)

/-! ## The cells of a bound row -/

section Cells

variable {r : Registry}

theorem Bound.Becomes.sized {type : Option CqlType} {bound : Bound Value} {cell : Bound Bytes}
    (h : bound.Becomes r type cell) : cell.Sized := by
  cases h with
  | null => trivial
  | unset => trivial
  | value hencoded hshort => exact hshort

theorem CellWriter.becomes_of_writeBound {type : Option CqlType} {bound : Bound Value}
    {cell left : CellWriter} (hfresh : cell.consumed = false)
    (h : writeBound (r.append type) bound cell = .ok () left) :
    ∃ made, bound.Becomes r type made ∧ left = cell.filled made := by
  cases bound with
  | null =>
    rw [writeBound, EStateM.adaptExcept, writeNull_fresh hfresh] at h
    cases h
    exact ⟨.null, .null, rfl⟩
  | unset =>
    rw [writeBound, EStateM.adaptExcept, writeUnset_fresh hfresh] at h
    cases h
    exact ⟨.unset, .unset, rfl⟩
  | value v =>
    simp only [writeBound, Draft.beginValue_fresh cell hfresh, Registry.append] at h
    cases hv : r.encode v type with
    | error fault => simp [hv] at h
    | ok bytes =>
      simp only [hv, Draft.append_empty] at h
      cases hmade : (⟨none, bytes⟩ : Draft).cell? with
      | none =>
        obtain ⟨fault, hfinish⟩ := Draft.finish_builder_none _ cell hmade
        simp [hfinish] at h
      | some made =>
        rw [Draft.finish_builder _ cell hmade] at h
        cases h
        obtain ⟨⟨_, hshort⟩, rfl⟩ := Draft.cell?_eq_some.mp hmade
        exact ⟨.value bytes, .value hv hshort, rfl⟩

namespace BoundRow

/-- Writing goes on as long as every value becomes a cell, which is added to the row. -/
theorem holds_of_writeAll {row written : RowWriter} {done : List (Bound Bytes)} {index : Nat}
    {items : List (Bound Value × Option CqlType)} (hholds : row.Holds done)
    (h : writeAll r row index items = .ok written) :
    ∃ cells, List.Forall₂ (fun item cell => item.1.Becomes r item.2 cell) items cells ∧
      (∀ cell ∈ cells, cell.Sized) ∧ written.Holds (done ++ cells) := by
  induction items generalizing row index done with
  | nil =>
    cases h
    exact ⟨[], .nil, by simp, by simpa using hholds⟩
  | cons item items ih =>
    obtain ⟨bound, type⟩ := item
    rw [writeAll] at h
    split at h
    · cases h
    · rename_i left hwrite
      obtain ⟨made, hmade, rfl⟩ := CellWriter.becomes_of_writeBound rfl hwrite
      obtain ⟨cells, hcells, hsized, hwritten⟩ := ih (hholds.filled made) h
      refine ⟨made :: cells, .cons hmade hcells, ?_, by simpa using hwritten⟩
      exact List.forall_mem_cons.mpr ⟨hmade.sized, hsized⟩

theorem cells_of_bind {values : List (Bound Value)} {types : List CqlType} {row : BoundRow}
    (h : bind r values types = .ok row) :
    types.length = values.length ∧ ∃ cells,
      List.Forall₂ (fun item cell => item.1.Becomes r (some item.2) cell) (values.zip types) cells ∧
      (∀ cell ∈ cells, cell.Sized) ∧ row.cells = cellsBytes cells := by
  rw [bind] at h
  split at h
  · rename_i hlen
    obtain ⟨written, hwritten, hrow⟩ := bind_eq_ok.mp h
    obtain ⟨cells, hcells, hsized, hholds⟩ := holds_of_writeAll RowWriter.new_holds hwritten
    rw [List.zip_map_right, List.forall₂_map_left_iff] at hcells
    obtain ⟨hbytes, _, _⟩ := hholds.toList_finalize hsized (mapError_eq_ok.mp hrow)
    refine ⟨hlen, cells, hcells, hsized, ?_⟩
    rw [BoundRow.cells, hbytes]
    exact List.drop_left' (Bytes.length_ofNat 2 _)
  · cases h

end BoundRow

end Cells

/-! ## The cells of a row that is read -/

/-- The bytes of a cell, none being null. -/
def Bound.content? : Bound Bytes → Option Bytes
  | .value bytes => some bytes
  | .null | .unset => none

theorem reads_cellBytes {cell : Bound Bytes} (h : cell.Sized) :
    Reads Wire.optionalBytes cell.cellBytes cell.content? := by
  cases cell with
  | null => exact reads_optionalBytes_null
  | unset => exact (reads_int32 (-2)).bind_nil (reads_pure none)
  | value bytes => exact reads_optionalBytes h

namespace Row

theorem reads_frameCells {columns : Columns} {cells : List (Bound Bytes)}
    (hlen : columns.length = cells.length) (hsized : ∀ cell ∈ cells, cell.Sized) (index : Nat)
    (done : List (Column × Option Bytes)) :
    Reads (frameCells columns index done) (cellsBytes cells)
      (done.reverse ++ columns.zip (cells.map Bound.content?)) := by
  induction columns generalizing cells index done with
  | nil =>
    obtain rfl : cells = [] := by simpa using hlen.symm
    simpa [frameCells, cellsBytes] using reads_pure done.reverse
  | cons column columns ih =>
    cases cells with
    | nil => simp at hlen
    | cons cell cells =>
      have hcell := reads_cellBytes (hsized cell (by simp))
      have hrest := ih (by simpa using hlen) (fun c hc => hsized c (by simp [hc])) (index + 1)
        ((column, cell.content?) :: done)
      rw [cellsBytes_cons]
      refine (hcell.mapError _).bind ?_
      simpa using hrest

theorem decodeCells_eq_ok {r : Registry} {cells : List (Column × Option Bytes)} {row : Row}
    (h : List.Forall₂ (fun cell v => decodeCell r cell.1.type cell.2 = .ok v) cells row)
    (index : Nat) (done : Row) : decodeCells r cells index done = .ok (done.reverse ++ row) := by
  induction h generalizing index done with
  | nil => simp [decodeCells]
  | @cons cell v cells row hcell _ ih =>
    obtain ⟨column, part⟩ := cell
    rw [decodeCells, hcell]
    simpa using ih (index + 1) (v :: done)

end Row

/-! ## The values that are read -/

/-- Whether a value of the type may have no bytes without being taken for null. -/
def CqlType.tellsEmpty : CqlType → Bool
  | .native .ascii | .native .text | .native .blob => true
  | _ => false

/-- What a value bound to a column of a type is read as. -/
def Bound.readAs (type : CqlType) : Bound Value → Option Value
  | .null | .unset => none
  | .value v =>
    match Registry.standard.encode v (some type) with
    | .ok [] => if type.tellsEmpty then some (type.canon v) else none
    | _ => some (type.canon v)

theorem hasEmptyEncoding_eq_tellsEmpty {type : CqlType} {v : Value} {bytes : Bytes}
    (h : Registry.standard.encode v (some type) = .ok bytes) :
    type.code.hasEmptyEncoding = type.tellsEmpty := by
  cases type with
  | custom className => cases h
  | native type => cases type <;> rfl
  | _ => rfl

theorem Bound.Becomes.decodeCell {type : CqlType} {bound : Bound Value} {cell : Bound Bytes}
    (h : bound.Becomes .standard (some type) cell) :
    Row.decodeCell .standard type cell.content? = .ok (bound.readAs type) := by
  cases h with
  | null => rfl
  | unset => rfl
  | @value v bytes hencoded hshort =>
    have hback := readsBack type v bytes hencoded
    have hempty := hasEmptyEncoding_eq_tellsEmpty hencoded
    simp only [Bound.content?, Row.decodeCell, Bound.readAs, hencoded, hempty, hback]
    cases bytes with
    | nil => cases type.tellsEmpty <;> rfl
    | cons b bytes => rfl

namespace Row

theorem decodeCell_each {values : List (Bound Value)} {columns : Columns}
    {cells : List (Bound Bytes)} (hlen : columns.length = values.length)
    (h : List.Forall₂ (fun item cell => item.1.Becomes .standard (some item.2) cell)
      (values.zip columns.types) cells) :
    List.Forall₂ (fun cell v => decodeCell .standard cell.1.type cell.2 = .ok v)
      (columns.zip (cells.map Bound.content?))
      (List.zipWith (fun column bound => bound.readAs column.type) columns values) := by
  induction columns generalizing values cells with
  | nil => simp
  | cons column columns ih =>
    cases values with
    | nil => simp at hlen
    | cons bound values =>
      cases h with
      | cons hcell hcells => exact .cons hcell.decodeCell (ih (by simpa using hlen) hcells)

/-- Values that can be bound to columns are read back by the same columns, whatever follows them:
null for null, for a value left unset and for one without any byte, unless it is a text or a blob;
and any other value as its column names it. -/
theorem read_of_bind {columns : Columns} {values : List (Bound Value)} {row : BoundRow}
    (h : BoundRow.bind .standard values columns.types = .ok row) (rest : Bytes) :
    columns.length = values.length ∧
    read .standard columns (row.cells ++ rest) =
      .ok (List.zipWith (fun column bound => bound.readAs column.type) columns values) rest := by
  obtain ⟨htypes, cells, hcells, hsized, hbytes⟩ := BoundRow.cells_of_bind h
  have hlen : columns.length = values.length := by simpa [Columns.types] using htypes
  have hcount : columns.length = cells.length := by
    rw [← hcells.length_eq, List.length_zip, htypes, Nat.min_self, hlen]
  have hdecoded := decodeCells_eq_ok (decodeCell_each hlen hcells) 0 []
  have hread : Reads (read .standard columns) row.cells _ :=
    hbytes ▸ (reads_frameCells hcount hsized 0 []).bind_nil (reads_ofExcept hdecoded)
  exact ⟨hlen, hread rest⟩

/-- An empty text is read as such, an empty tuple as null; a counter takes the name of its column's
type, and a field that is not bound reads as null. -/
theorem read_of_bind_mixed :
    read .standard
      [⟨"ks", "t", "note", 0, .native .text⟩, ⟨"ks", "t", "pair", 1, .tuple []⟩,
        ⟨"ks", "t", "hits", 2, .native .bigint⟩, ⟨"ks", "t", "old", 3, .native .int⟩,
        ⟨"ks", "t", "item", 4, .udt "ks" "item" [("a", .native .tinyint), ("b", .native .int)]⟩]
      [0, 0, 0, 0, 0, 0, 0, 0, 0, 0, 0, 8, 0, 0, 0, 0, 0, 0, 0, 5, 255, 255, 255, 254,
        0, 0, 0, 12, 255, 255, 255, 255, 0, 0, 0, 4, 0, 0, 0, 3, 42] =
      .ok [some (.text ""), none, some (.bigint 5), none,
        some (.udt "ks" "item" [("a", none), ("b", some (.int 3))])] [42] := by
  have hbind : BoundRow.bind .standard
      [.value (.ascii ""), .value (.tuple []), .value (.counter 5), .unset,
        .value (.udt "" "" [("b", some (.int 3))])]
      (Columns.types [⟨"ks", "t", "note", 0, .native .text⟩, ⟨"ks", "t", "pair", 1, .tuple []⟩,
        ⟨"ks", "t", "hits", 2, .native .bigint⟩, ⟨"ks", "t", "old", 3, .native .int⟩,
        ⟨"ks", "t", "item", 4, .udt "ks" "item" [("a", .native .tinyint), ("b", .native .int)]⟩]) =
      .ok ⟨[0, 5, 0, 0, 0, 0, 0, 0, 0, 0, 0, 0, 0, 8, 0, 0, 0, 0, 0, 0, 0, 5, 255, 255, 255, 254,
        0, 0, 0, 12, 255, 255, 255, 255, 0, 0, 0, 4, 0, 0, 0, 3], 5⟩ := rfl
  exact (read_of_bind hbind [42]).2

end Row

end CqlClient
