import CqlClient.Proofs.Codec.Accepted
import CqlClient.Proofs.Row.Read

/-!
# What reading a row comes to

A row is read in two passes: first every cell is framed, then every cell that is not null is
decoded. So a cell that lacks bytes counts before a value that is refused, wherever the two are.

* `Row.framed_or_cut`: bytes hold a cell for each column, or there is a first column without one;
* `Row.Framed.split`: where bytes are nothing but cells, so is what is left of them behind some;
* `Row.meaning_or_refusal`: every cell means a value or null, or there is a first one that is
  refused;
* `Row.read_eq_iff_reading`: from these alone it is told what reading a row comes to.
-/

namespace CqlClient

namespace Row

/-! ## Cells -/

/-- The bytes of one cell: a negative length, which stands for null, or a length and that many
bytes. -/
inductive IsCell : Bytes → Option Bytes → Prop
  | null {length : Int32} (negative : length < 0) : IsCell (Bytes.ofInt32 length) none
  | content {bytes : Bytes} (fits : bytes.length ≤ Wire.maxInt32) :
    IsCell (Wire.writeBytes bytes) (some bytes)

/-- No cell can be framed at the front of the bytes, since its length or its content ends too late.
What is left is what comes after a length that is there. -/
inductive LacksCell : Bytes → Bytes → Prop
  | length {bytes : Bytes} (short : bytes.length < 4) : LacksCell bytes bytes
  | content {length : Nat} {bytes : Bytes} (fits : length ≤ Wire.maxInt32)
    (short : bytes.length < length) : LacksCell (Bytes.ofNat 4 length ++ bytes) bytes

/-- The bytes are these cells, one after the other, and then the rest. -/
inductive Framed : Bytes → List (Option Bytes) → Bytes → Prop
  | nil {rest : Bytes} : Framed rest [] rest
  | cons {front bytes rest : Bytes} {cell : Option Bytes} {cells : List (Option Bytes)}
    (first : IsCell front cell) (others : Framed bytes cells rest) :
    Framed (front ++ bytes) (cell :: cells) rest

theorem IsCell.reads {front : Bytes} {cell : Option Bytes} (h : IsCell front cell) :
    Reads Wire.optionalBytes front cell := by
  cases h with
  | @null length hnegative =>
    refine (reads_int32 length).bind_nil ?_
    rw [if_pos hnegative]
    exact reads_pure none
  | content hfits => exact reads_optionalBytes hfits

theorem LacksCell.fails {bytes left : Bytes} (h : LacksCell bytes left) :
    Wire.optionalBytes bytes = .error .endOfInput left := by
  cases h with
  | length hshort => exact bind_of_error (bind_of_error (raw_of_short hshort))
  | @content length _ hfits hshort =>
    rw [← ofInt32_ofNat hfits]
    refine (bind_of_ok (reads_int32 _ _)).trans ?_
    rw [if_neg (not_int32_ofNat_neg hfits), toInt_int32_ofNat hfits]
    exact bind_of_error (raw_of_short hshort)

theorem isCell_or_lacksCell (bytes : Bytes) :
    (∃ front cell rest, bytes = front ++ rest ∧ IsCell front cell) ∨
      ∃ left, LacksCell bytes left := by
  by_cases hshort : bytes.length < 4
  · exact .inr ⟨bytes, .length hshort⟩
  · obtain ⟨front, tail, rfl, hfront⟩ : ∃ front tail, bytes = front ++ tail ∧ front.length = 4 :=
      ⟨bytes.take 4, bytes.drop 4, (List.take_append_drop 4 bytes).symm, by
        rw [List.length_take]
        omega⟩
    have hwritten := ofInt32_toInt32 hfront
    by_cases hneg : Bytes.toInt32 front < 0
    · exact .inl ⟨front, none, tail, rfl, hwritten ▸ .null hneg⟩
    · obtain ⟨hlength, hmax⟩ := ofInt32_of_nonneg hneg
      rw [hwritten] at hlength
      by_cases hcut : tail.length < (Bytes.toInt32 front).toInt.toNat
      · refine .inr ⟨tail, ?_⟩
        rw [hlength]
        exact .content hmax hcut
      · generalize (Bytes.toInt32 front).toInt.toNat = n at hlength hmax hcut
        have hn : (tail.take n).length = n := by
          rw [List.length_take]
          omega
        refine .inl ⟨Wire.writeBytes (tail.take n), some (tail.take n), tail.drop n, ?_,
          .content (hn.symm ▸ hmax)⟩
        rw [Wire.writeBytes, hn, List.append_assoc, List.take_append_drop, hlength]

/-- There is a cell for every column, or a first column that lacks one. -/
theorem framed_or_cut (columns : Columns) (bytes : Bytes) :
    (∃ cells rest, Framed bytes cells rest ∧ cells.length = columns.length) ∨
      ∃ cells rest left column, Framed bytes cells rest ∧ columns[cells.length]? = some column ∧
        LacksCell rest left := by
  induction columns generalizing bytes with
  | nil => exact .inl ⟨[], bytes, .nil, rfl⟩
  | cons column columns ih =>
    rcases isCell_or_lacksCell bytes with ⟨front, cell, tail, rfl, hcell⟩ | ⟨left, hlacks⟩
    · rcases ih tail with ⟨cells, rest, hframed, hlen⟩ |
        ⟨cells, rest, left, next, hframed, hnext, hlacks⟩
      · exact .inl ⟨cell :: cells, rest, .cons hcell hframed, by simp [hlen]⟩
      · exact .inr ⟨cell :: cells, rest, left, next, .cons hcell hframed, by simpa using hnext,
          hlacks⟩
    · exact .inr ⟨[], bytes, left, column, .nil, rfl, hlacks⟩

theorem frameCells_of_framed {columns : Columns} {bytes rest : Bytes}
    {cells : List (Option Bytes)} (h : Framed bytes cells rest)
    (hlen : cells.length = columns.length) (index : Nat) (done : List (Column × Option Bytes)) :
    frameCells columns index done bytes = .ok (done.reverse ++ columns.zip cells) rest := by
  induction h generalizing columns index done with
  | nil =>
    obtain rfl : columns = [] := by simpa using hlen.symm
    rw [List.zip_nil_left, List.append_nil]
    rfl
  | @cons front bytes rest cell cells hfirst _ ih =>
    cases columns with
    | nil => cases hlen
    | cons column columns =>
      refine (bind_of_ok ((hfirst.reads.mapError _) bytes)).trans ?_
      rw [ih (by simpa using hlen), List.reverse_cons, List.append_assoc]
      rfl

theorem frameCells_of_cut {columns : Columns} {bytes rest left : Bytes}
    {cells : List (Option Bytes)} {column : Column} (h : Framed bytes cells rest)
    (hcolumn : columns[cells.length]? = some column) (hlacks : LacksCell rest left) (index : Nat)
    (done : List (Column × Option Bytes)) :
    frameCells columns index done bytes =
      .error (refuse (index + cells.length) column (.invalid (.wire .endOfInput))) left := by
  induction h generalizing columns index done with
  | nil =>
    cases columns with
    | nil => cases hcolumn
    | cons hfirst columns =>
      cases hcolumn
      refine bind_of_error ?_
      rw [Reader.mapError, EStateM.adaptExcept, hlacks.fails]
      rfl
  | @cons front bytes rest cell cells hfirst _ ih =>
    cases columns with
    | nil => cases hcolumn
    | cons other columns =>
      refine (bind_of_ok ((hfirst.reads.mapError _) bytes)).trans ?_
      rw [ih (by simpa using hcolumn) hlacks, List.length_cons, Nat.add_right_comm, Nat.add_assoc]

theorem IsCell.length_le {front : Bytes} {cell : Option Bytes} (h : IsCell front cell) :
    4 ≤ front.length := by
  cases h with
  | null => exact Nat.le_of_eq (Bytes.length_ofNat 4 _).symm
  | content =>
    rw [Wire.writeBytes, List.length_append, Bytes.length_ofNat]
    omega

theorem Framed.length_pos {bytes rest : Bytes} {cells : List (Option Bytes)}
    (h : Framed bytes cells rest) (hne : cells ≠ []) : 0 < bytes.length := by
  cases h with
  | nil => exact absurd rfl hne
  | cons hfirst _ =>
    have hfront := hfirst.length_le
    rw [List.length_append]
    omega

/-- Cells have as many bytes as they say, so that the next one starts at one place only. -/
theorem IsCell.next {front front' bytes bytes' : Bytes} {cell cell' : Option Bytes}
    (h : IsCell front cell) (h' : IsCell front' cell') (heq : front ++ bytes = front' ++ bytes') :
    bytes = bytes' := by
  have hread := h.reads bytes
  rw [heq, h'.reads bytes'] at hread
  injection hread with _ hrest
  exact hrest.symm

/-- Where bytes are nothing but cells, so is what is left of them behind some cells. -/
theorem Framed.split {bytes rest : Bytes} {all cells : List (Option Bytes)}
    (hall : Framed bytes all []) (h : Framed bytes cells rest) :
    ∃ others, all.length = cells.length + others.length ∧ Framed rest others [] := by
  induction h generalizing all with
  | nil => exact ⟨all, (Nat.zero_add _).symm, hall⟩
  | @cons front bytes rest cell cells hfirst _ ih =>
    generalize hwhole : front ++ bytes = whole at hall
    cases hall with
    | nil =>
      have hlength := congrArg List.length hwhole
      have hfront := hfirst.length_le
      rw [List.length_append, List.length_nil] at hlength
      omega
    | @cons front' bytes' _ cell' later hfirst' hlater =>
      rw [← hfirst.next hfirst' hwhole] at hlater
      obtain ⟨others, hlength, hothers⟩ := ih hlater
      refine ⟨others, ?_, hothers⟩
      rw [List.length_cons, List.length_cons, hlength, Nat.add_right_comm]

/-! ## Values -/

/-- What a cell of a type means: null if it is null or if it has no bytes and no value of the type
is written so, and else what the registry makes of its bytes. -/
inductive Means (r : Registry) (type : CqlType) : Option Bytes → Option Value → Prop
  | null : Means r type none none
  | empty (never : type.code.hasEmptyEncoding = false) : Means r type (some []) none
  | value {bytes : Bytes} {v : Value} (told : bytes = [] → type.code.hasEmptyEncoding = true)
    (decoded : r.decode type bytes = .ok v) : Means r type (some bytes) (some v)

/-- The registry does not accept a cell that is not null. -/
inductive Refused (r : Registry) (type : CqlType) : Option Bytes → DecodeFault → Prop
  | value {bytes : Bytes} {fault : DecodeFault}
    (told : bytes = [] → type.code.hasEmptyEncoding = true)
    (decoded : r.decode type bytes = .error fault) : Refused r type (some bytes) fault

variable {r : Registry} {type : CqlType} {cell : Option Bytes}

theorem Means.decodeCell {v : Option Value} (h : Means r type cell v) :
    decodeCell r type cell = .ok v := by
  cases h with
  | null => rfl
  | empty hnever => simp [Row.decodeCell, hnever]
  | @value bytes v htold hdecoded =>
    cases bytes with
    | nil => simp [Row.decodeCell, htold rfl, hdecoded, Functor.map, Except.map]
    | cons b bytes => simp [Row.decodeCell, hdecoded, Functor.map, Except.map]

theorem Refused.decodeCell {fault : DecodeFault} (h : Refused r type cell fault) :
    decodeCell r type cell = .error fault := by
  cases h with
  | @value bytes fault htold hdecoded =>
    cases bytes with
    | nil => simp [Row.decodeCell, htold rfl, hdecoded, Functor.map, Except.map]
    | cons b bytes => simp [Row.decodeCell, hdecoded, Functor.map, Except.map]

theorem means_or_refused (r : Registry) (type : CqlType) (cell : Option Bytes) :
    (∃ v, Means r type cell v) ∨ ∃ fault, Refused r type cell fault := by
  cases cell with
  | none => exact .inl ⟨none, .null⟩
  | some bytes =>
    by_cases hempty : bytes = [] ∧ type.code.hasEmptyEncoding = false
    · obtain ⟨rfl, hnever⟩ := hempty
      exact .inl ⟨none, .empty hnever⟩
    · have htold : bytes = [] → type.code.hasEmptyEncoding = true := fun hbytes => by
        simpa [hbytes] using hempty
      cases hdecode : r.decode type bytes with
      | ok v => exact .inl ⟨some v, .value htold hdecode⟩
      | error fault => exact .inr ⟨fault, .value htold hdecode⟩

/-- Every cell has a meaning, or there is a first one that is refused. -/
theorem meaning_or_refusal (r : Registry) (cells : List (Column × Option Bytes)) :
    (∃ row, List.Forall₂ (fun cell v => Means r cell.1.type cell.2 v) cells row) ∨
      ∃ before row column cell after fault, cells = before ++ (column, cell) :: after ∧
        List.Forall₂ (fun cell v => Means r cell.1.type cell.2 v) before row ∧
        Refused r column.type cell fault := by
  induction cells with
  | nil => exact .inl ⟨[], .nil⟩
  | cons first cells ih =>
    rcases means_or_refused r first.1.type first.2 with ⟨v, hv⟩ | ⟨fault, hfault⟩
    · rcases ih with ⟨row, hrow⟩ | ⟨before, row, column, cell, after, fault, rfl, hrow, hfault⟩
      · exact .inl ⟨v :: row, .cons hv hrow⟩
      · exact .inr ⟨first :: before, v :: row, column, cell, after, fault, rfl, .cons hv hrow,
          hfault⟩
    · exact .inr ⟨[], [], first.1, first.2, cells, fault, rfl, .nil, hfault⟩

theorem decodeCells_of_refusal {before after : List (Column × Option Bytes)} {row : Row}
    {column : Column} {fault : DecodeFault}
    (hbefore : List.Forall₂ (fun cell v => Means r cell.1.type cell.2 v) before row)
    (hfault : Refused r column.type cell fault) (index : Nat) (done : Row) :
    decodeCells r (before ++ (column, cell) :: after) index done =
      .error (refuse (index + before.length) column fault) := by
  induction hbefore generalizing index done with
  | nil =>
    rw [List.nil_append, decodeCells, hfault.decodeCell]
    rfl
  | @cons first v before row hfirst _ ih =>
    rw [List.cons_append, decodeCells, hfirst.decodeCell, List.length_cons]
    simp only [ih, Nat.add_right_comm, Nat.add_assoc]

/-! ## Rows -/

/-- What reading a row comes to, and what is left of the bytes after it. -/
inductive Reading (r : Registry) (columns : Columns) (bytes : Bytes) :
    EStateM.Result RowDecodeFault Bytes Row → Prop
  /-- A column is the first that lacks its cell, whatever the cells before it hold. -/
  | cut {cells : List (Option Bytes)} {rest left : Bytes} {column : Column}
    (framed : Framed bytes cells rest) (first : columns[cells.length]? = some column)
    (lacks : LacksCell rest left) :
    Reading r columns bytes
      (.error ⟨cells.length, column.name, column.type, .invalid (.wire .endOfInput)⟩ left)
  /-- All cells are there, and one is the first that the registry refuses. -/
  | refused {cells : List (Option Bytes)} {rest : Bytes}
    {before after : List (Column × Option Bytes)} {row : Row} {column : Column}
    {cell : Option Bytes} {fault : DecodeFault}
    (framed : Framed bytes cells rest) (whole : cells.length = columns.length)
    (split : columns.zip cells = before ++ (column, cell) :: after)
    (earlier : List.Forall₂ (fun cell v => Means r cell.1.type cell.2 v) before row)
    (first : Refused r column.type cell fault) :
    Reading r columns bytes (.error ⟨before.length, column.name, column.type, fault⟩ rest)
  | row {cells : List (Option Bytes)} {rest : Bytes} {row : Row}
    (framed : Framed bytes cells rest) (whole : cells.length = columns.length)
    (values : List.Forall₂ (fun cell v => Means r cell.1.type cell.2 v) (columns.zip cells) row) :
    Reading r columns bytes (.ok row rest)

variable {columns : Columns} {bytes : Bytes} {outcome : EStateM.Result RowDecodeFault Bytes Row}

theorem read_of_framed {cells : List (Option Bytes)} {rest : Bytes}
    (h : Framed bytes cells rest) (hlen : cells.length = columns.length) :
    read r columns bytes = Reader.ofExcept (decodeCells r (columns.zip cells) 0 []) rest :=
  bind_of_ok (frameCells_of_framed h hlen 0 [])

theorem Reading.read_eq (h : Reading r columns bytes outcome) :
    read r columns bytes = outcome := by
  cases h with
  | @cut cells rest left column hframed hfirst hlacks =>
    refine bind_of_error ((frameCells_of_cut hframed hfirst hlacks 0 []).trans ?_)
    rw [Nat.zero_add]
    rfl
  | @refused cells rest before after row column cell fault hframed hwhole hsplit hearlier hfirst =>
    rw [read_of_framed hframed hwhole, hsplit, decodeCells_of_refusal hearlier hfirst, Nat.zero_add]
    rfl
  | @row cells rest row hframed hwhole hvalues =>
    have hdecoded := decodeCells_eq_ok (hvalues.imp fun _ _ h => h.decodeCell) 0 []
    rw [read_of_framed hframed hwhole, hdecoded]
    rfl

theorem exists_reading (r : Registry) (columns : Columns) (bytes : Bytes) :
    ∃ outcome, Reading r columns bytes outcome := by
  rcases framed_or_cut columns bytes with ⟨cells, rest, hframed, hlen⟩ |
    ⟨cells, rest, left, column, hframed, hcolumn, hlacks⟩
  · rcases meaning_or_refusal r (columns.zip cells) with ⟨row, hrow⟩ |
      ⟨before, row, column, cell, after, fault, hsplit, hbefore, hfault⟩
    · exact ⟨_, .row hframed hlen hrow⟩
    · exact ⟨_, .refused hframed hlen hsplit hbefore hfault⟩
  · exact ⟨_, .cut hframed hcolumn hlacks⟩

/-- A row that is read has used up a cell for each column and has a value for each. -/
theorem cells_of_read {r : Registry} {columns : Columns} {bytes rest : Bytes} {row : Row}
    (h : read r columns bytes = .ok row rest) :
    (∃ cells, Framed bytes cells rest ∧ cells.length = columns.length) ∧
      row.length = columns.length := by
  obtain ⟨outcome, hreading⟩ := exists_reading r columns bytes
  obtain rfl : outcome = .ok row rest := hreading.read_eq.symm.trans h
  cases hreading with
  | @row cells _ _ hframed hwhole hvalues =>
    refine ⟨⟨cells, hframed, hwhole⟩, ?_⟩
    rw [← hvalues.length_eq, List.length_zip, hwhole, Nat.min_self]

/-- Reading a row comes to what `Reading` says and to nothing else, and a row that is read has as
many values as there are columns. -/
theorem read_eq_iff_reading (r : Registry) (columns : Columns) (bytes : Bytes) :
    (∀ outcome, read r columns bytes = outcome ↔ Reading r columns bytes outcome) ∧
      ∀ row rest, read r columns bytes = .ok row rest → row.length = columns.length := by
  have hiff (outcome) : read r columns bytes = outcome ↔ Reading r columns bytes outcome := by
    refine ⟨fun h => ?_, Reading.read_eq⟩
    obtain ⟨reached, hreached⟩ := exists_reading r columns bytes
    rwa [← h, hreached.read_eq]
  refine ⟨hiff, fun row rest h => ?_⟩
  cases (hiff _).mp h with
  | @row cells _ _ hframed hwhole hvalues =>
    rw [← hvalues.length_eq, List.length_zip, hwhole, Nat.min_self]

end Row

end CqlClient
