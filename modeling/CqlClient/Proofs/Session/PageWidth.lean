import CqlClient.Proofs.Response.Rows
import CqlClient.Proofs.Row.Reading
import CqlClient.Proofs.Session.PageRows

/-!
# How wide the rows of a page are

A row has as many values as the columns by which it is read: those of its own page, or those known
from elsewhere if the page comes without. Nothing compares the latter with the number of columns
that the page announces, so rows may be cut to another width before a fault ends the page.

* `RowIterator.length_of_item_page`: every row that is taken is as wide as the columns;
* `RowIterator.exists_error_of_width`: a page whose rows are of another width gives a fault;
* `Page.rows_of_width`: all of that for the pages that servers send.
-/

namespace CqlClient

/-! ## Rows that are taken -/

namespace RowIterator

variable {it : RowIterator}

/-- A call that gives a row has read it from the bytes that were left. -/
theorem read_of_next {row : Row} (h : it.next.1 = some (.ok row)) :
    Row.read it.registry it.columns it.content = .ok row it.next.2.content := by
  cases hremaining : it.remaining with
  | zero =>
    rw [next_of_zero hremaining] at h
    cases h
  | succ n =>
    cases hread : Row.read it.registry it.columns it.content with
    | error fault rest =>
      rw [next_of_error hremaining hread] at h
      cases h
    | ok read rest =>
      rw [next_of_ok hremaining hread] at h ⊢
      cases h
      rfl

theorem columns_next (it : RowIterator) : it.next.2.columns = it.columns := by
  cases hremaining : it.remaining with
  | zero => rw [next_of_zero hremaining]
  | succ n =>
    cases hread : Row.read it.registry it.columns it.content with
    | error fault rest => rw [next_of_error hremaining hread]
    | ok read rest => rw [next_of_ok hremaining hread]

theorem columns_after (it : RowIterator) (k : Nat) : (it.after k).columns = it.columns := by
  induction k with
  | zero => rfl
  | succ k ih => rw [after_succ, columns_next, ih]

/-- Every row that is taken from a page is as wide as its columns. -/
theorem length_of_item_page {k : Nat} {row : Row}
    (h : it.page.item it.registry k = some (.ok row)) : row.length = it.columns.length := by
  rw [item_page] at h
  rcases (it.after k).judged_cases with ⟨hjudged, _⟩ | ⟨hjudged, _⟩
  · rw [hjudged] at h
    cases h
  · rw [hjudged, Option.map_eq_some_iff] at h
    obtain ⟨item, hitem, hrow⟩ := h
    cases item with
    | error fault => cases hrow
    | ok read =>
      cases hrow
      rw [← it.columns_after k]
      exact (Row.cells_of_read (read_of_next hitem)).2

theorem remaining_of_next {row : Row} (h : it.next.1 = some (.ok row)) :
    it.remaining = it.next.2.remaining + 1 := by
  rcases it.next_cases with ⟨_, hnext⟩ | ⟨_, hfault, _⟩ | ⟨_, _, hremaining⟩
  · rw [hnext] at h
    cases h
  · rw [hfault] at h
    cases h
  · exact hremaining

/-- The iterator gives a row where one is left and the page reports no fault. -/
theorem exists_row_of_page {k : Nat} (hleft : (it.after k).remaining ≠ 0)
    (h : ∀ fault, it.page.item it.registry k ≠ some (.error fault)) :
    ∃ row, it.item k = some (.ok row) := by
  rw [item_page] at h
  rcases (it.after k).judged_cases with ⟨hjudged, _⟩ | ⟨hjudged, _⟩
  · exact absurd hjudged (h _)
  · rcases hitem : it.item k with _ | fault | row
    · exact absurd (item_eq_none_iff.mp hitem) hleft
    · rw [show (it.after k).next.1 = _ from hitem] at hjudged
      exact absurd hjudged (h _)
    · exact ⟨row, rfl⟩

/-- As long as a page gives rows, it has used up a cell for each of their values. -/
theorem framed_after {all : List (Option Bytes)} (hall : Row.Framed it.content all [])
    (hrows : ∀ k < it.remaining, ∀ fault, it.page.item it.registry k ≠ some (.error fault))
    {k : Nat} (hk : k ≤ it.remaining) :
    (it.after k).remaining + k = it.remaining ∧ ∃ others,
      all.length = k * it.columns.length + others.length ∧
        Row.Framed (it.after k).content others [] := by
  induction k with
  | zero => exact ⟨rfl, all, by rw [Nat.zero_mul, Nat.zero_add], hall⟩
  | succ k ih =>
    obtain ⟨hremaining, others, hlength, hothers⟩ := ih (Nat.le_of_succ_le hk)
    obtain ⟨row, hrow⟩ := exists_row_of_page (by omega) (hrows k hk)
    obtain ⟨⟨cells, hcells, hwidth⟩, _⟩ := Row.cells_of_read (read_of_next hrow)
    obtain ⟨later, hlater, hframed⟩ := hothers.split hcells
    have hnext := remaining_of_next hrow
    rw [columns_after] at hwidth
    rw [after_succ]
    refine ⟨by omega, later, ?_, hframed⟩
    rw [hlength, hlater, hwidth, Nat.succ_mul, Nat.add_assoc]

/-- If the content is nothing but rows of another width, some row is refused: it lacks a cell, or
a cell does not suit its column, or cells are left after the last row. -/
theorem exists_error_of_width {all : List (Option Bytes)} {width : Nat}
    (hall : Row.Framed it.content all []) (hlength : all.length = it.remaining * width)
    (hpositive : 0 < it.remaining) (hwidth : it.columns.length ≠ width) :
    ∃ k < it.remaining, ∃ fault, it.page.item it.registry k = some (.error fault) := by
  by_contra hnone
  have hrows : ∀ k < it.remaining, ∀ fault, it.page.item it.registry k ≠ some (.error fault) :=
    fun k hk fault hfault => hnone ⟨k, hk, fault, hfault⟩
  -- Every row has used up as many cells as there are columns, so that some are left over unless
  -- that is the width; but what is left over is a fault too.
  obtain ⟨_, others, hothers, hframed⟩ := framed_after hall hrows (Nat.le_refl it.remaining)
  have hleft : others ≠ [] := by
    rintro rfl
    rw [hlength, List.length_nil, Nat.add_zero] at hothers
    exact hwidth (Nat.eq_of_mul_eq_mul_left hpositive hothers).symm
  have htrails : it.Trails (it.after it.remaining).content.length := by
    refine ⟨hframed.length_pos hleft, hpositive, fun k hk => ?_, rfl⟩
    obtain ⟨hremaining, _⟩ := framed_after hall hrows (Nat.le_of_lt hk)
    exact exists_row_of_page (by omega) (hrows k hk)
  have hlast := item_page_of_trails htrails (it.remaining - 1)
  rw [if_pos (Nat.sub_add_cancel hpositive)] at hlast
  exact hrows _ (Nat.sub_lt hpositive Nat.one_pos) _ hlast

end RowIterator

/-! ## Pages that servers send -/

/-- Every row that is taken from a page has as many values as there are columns to read it by, and
these are as many as the page announces if they come with it. If columns from elsewhere are more or
fewer than the cells of a row, the page does not end without a fault. Without any columns there are
no rows to be taken. -/
theorem Page.rows_of_width {limit offset : Nat} {body : Bytes} {rows : Rows}
    (hrows : Rows.ofBody limit body offset = .ok rows) (fallback : Option Columns) (r : Registry) :
    (∀ columns, rows.metadata.columns = some columns →
      columns.length = rows.metadata.columnCount.toNat) ∧
    (∀ columns, (rows.metadata.columns <|> fallback) = some columns →
      ∃ page, ofRows rows fallback = .ok (page, rows.metadata.pagingState) ∧
        (∀ k row, page.item r k = some (.ok row) → row.length = columns.length) ∧
        ∀ cells, Row.Framed rows.content cells [] →
          cells.length = rows.count * rows.metadata.columnCount.toNat → 0 < rows.count →
          columns.length ≠ rows.metadata.columnCount.toNat →
          ∃ k < rows.count, ∃ fault, page.item r k = some (.error fault)) ∧
    ((rows.metadata.columns <|> fallback) = none →
      (0 < rows.count → ofRows rows fallback =
        .error (.call (.violation (.unexpected "rows without metadata")))) ∧
      (rows.count = 0 → ∃ page, ofRows rows fallback = .ok (page, rows.metadata.pagingState) ∧
        ∀ k, page.item r k = none)) := by
  refine ⟨fun columns => Rows.length_columns hrows, fun columns hcolumns => ?known,
    fun hnone => ?none⟩
  case known =>
    refine ⟨(RowIterator.mk r columns rows.count rows.content).page, ?_, fun k row hrow => ?_,
      fun cells hcells hlength hpositive hwidth => ?_⟩
    · rw [ofRows, hcolumns]
      rfl
    · exact @RowIterator.length_of_item_page ⟨r, columns, rows.count, rows.content⟩ k row hrow
    · exact @RowIterator.exists_error_of_width ⟨r, columns, rows.count, rows.content⟩ cells _ hcells
        hlength hpositive hwidth
  case none =>
    refine ⟨fun hpositive => ?_, fun hzero =>
      ⟨(RowIterator.mk r [] 0 rows.content).page, ?_, fun k => ?_⟩⟩
    · rw [ofRows, hnone]
      exact if_neg (Nat.ne_of_gt hpositive)
    · rw [ofRows, hnone]
      exact if_pos hzero
    · have hended := (RowIterator.mk r [] 0 rows.content).handout_page.bounded k
      exact hended (Nat.zero_le k)

/-- A page of two rows of two numbers, sent without its columns. -/
def Page.twoByTwo : Bytes :=
  [0, 0, 0, 4, 0, 0, 0, 2, 0, 0, 0, 2, 0, 0, 0, 4, 0, 0, 0, 1, 0, 0, 0, 4, 0, 0, 0, 2,
    0, 0, 0, 4, 0, 0, 0, 3, 0, 0, 0, 4, 0, 0, 0, 4]

/-- One column of numbers. -/
def Columns.ofNumbers : Columns := [⟨"ks", "tb", "v", 0, .native .int⟩]

theorem Page.rows_of_width_twoByTwo :
    ∃ rows page, Rows.ofBody 64 twoByTwo 0 = .ok rows ∧
      ofRows rows (some .ofNumbers) = .ok (page, none) ∧
      (∀ k row, page.item .standard k = some (.ok row) → row.length = 1) ∧
      ∃ k < 2, ∃ fault, page.item .standard k = some (.error fault) := by
  have hbody : Rows.ofBody 64 twoByTwo 0 = .ok ⟨⟨2, none, none⟩, 2, twoByTwo.drop 12⟩ := rfl
  have hcell (n : UInt8) : Row.IsCell [0, 0, 0, 4, 0, 0, 0, n] (some [0, 0, 0, n]) := by
    have hlength : Bytes.ofNat 4 4 = [0, 0, 0, 4] := by decide
    have hwritten : [0, 0, 0, 4, 0, 0, 0, n] = Wire.writeBytes [0, 0, 0, n] :=
      (congrArg (· ++ [0, 0, 0, n]) hlength).symm
    rw [hwritten]
    exact .content (show 4 ≤ Wire.maxInt32 by decide)
  have hcells : Row.Framed (twoByTwo.drop 12)
      [some [0, 0, 0, 1], some [0, 0, 0, 2], some [0, 0, 0, 3], some [0, 0, 0, 4]] [] :=
    .cons (hcell 1) (.cons (hcell 2) (.cons (hcell 3) (.cons (hcell 4) .nil)))
  obtain ⟨-, hknown, -⟩ := rows_of_width hbody (some .ofNumbers) .standard
  obtain ⟨page, hpage, hwidth, hfault⟩ := hknown .ofNumbers rfl
  exact ⟨_, page, hbody, hpage, hwidth, hfault _ hcells rfl (by decide) (by decide)⟩

/-- The number of columns that a page announces is not the width of its rows. -/
theorem Page.width_of_twoByTwo :
    ¬ ∀ (limit offset : Nat) (body : Bytes) (rows : Rows) (fallback : Option Columns)
        (r : Registry) (page : Page) (state : Option Bytes) (k : Nat) (row : Row),
      Rows.ofBody limit body offset = .ok rows → ofRows rows fallback = .ok (page, state) →
      page.item r k = some (.ok row) → row.length = rows.metadata.columnCount.toNat := by
  intro h
  have hbody : Rows.ofBody 64 twoByTwo 0 = .ok ⟨⟨2, none, none⟩, 2, twoByTwo.drop 12⟩ := rfl
  have hread : Row.read .standard .ofNumbers (twoByTwo.drop 12) =
      .ok [some (.int 1)] (twoByTwo.drop 20) := rfl
  have hitem : Page.item .standard ⟨twoByTwo.drop 12, 2, .ofNumbers⟩ 0 =
      some (.ok [some (.int 1)]) := by
    show (Page.next .standard ⟨twoByTwo.drop 12, 2, .ofNumbers⟩).1 = _
    rw [next, take]
    simp only [hread]
    rfl
  have hwidth := h 64 0 twoByTwo _ (some .ofNumbers) .standard _ none 0 _ hbody rfl hitem
  exact absurd hwidth (by decide)

end CqlClient
