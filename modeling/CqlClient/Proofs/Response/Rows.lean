import CqlClient.Proofs.Request.Sent
import CqlClient.Proofs.Response.Columns

/-!
# Pages of rows read back

How a server writes a page in version 4 of the protocol: to `Metadata.bytes`, where the table of the
columns is written once for all of them, with each of them, or not at all if the description is left
out, `Rows.bytesOf` adds the number of rows and their cells.

* `Metadata.reads_bytes`: what comes before the rows is read back, each column with its position;
* `Rows.ofBody_bytesOf`: at whatever offset a page starts, its cells are the bytes that are kept;
* `Rows.length_columns`: a page that comes with columns comes with as many as it announces.
-/

namespace CqlClient

open Descriptor (IsShort)

/-! ## Columns without custom classes -/

/-- The names of a column fit their lengths, its type is not nested too deep, and its table is the
one that all columns share, if they do. -/
structure Column.Fits (limit : Nat) (shared : Option (String × String)) (column : Column) :
    Prop where
  keyspace : IsShort column.keyspace
  table : IsShort column.table
  name : IsShort column.name
  type : column.type.Writable
  height : column.type.height ≤ limit
  shared : ∀ table, shared = some table → table = (column.keyspace, column.table)

variable {limit : Nat} {shared : Option (String × String)}

theorem Column.Fits.sendable {column : Column} (h : column.Fits limit shared) :
    column.Sendable limit shared :=
  ⟨h.keyspace, h.table, h.name, h.type.describable, h.height, h.shared⟩

theorem Column.Fits.described_eq {column : Column} (h : column.Fits limit shared) :
    column.described = column := by
  rw [Column.described, h.type.described_eq]

theorem Columns.described_eq {columns : Columns}
    (h : ∀ column ∈ columns, column.Fits limit shared) : columns.described = columns := by
  rw [described, List.map_congr_left fun column hmem => (h column hmem).described_eq, List.map_id']

theorem Column.moved_eq {column : Column} {index : Nat} (h : column.index = index) :
    column.moved index = column := by
  subst h
  rfl

theorem Columns.numbered_eq {columns : Columns}
    (h : columns.map (·.index) = List.range' 0 columns.length) : columns.numbered = columns := by
  rw [numbered]
  refine List.ext_getElem List.length_mapIdx fun index _ hindex => ?_
  have hposition := List.getElem_of_eq h (by rwa [List.length_map])
  rw [List.getElem_map, List.getElem_range', Nat.one_mul, Nat.zero_add] at hposition
  rw [List.getElem_mapIdx, Column.moved_eq hposition]

/-! ## Metadata -/

namespace Metadata

/-- All lengths and counts fit, and every column has its position. -/
structure Fits (limit : Nat) (shared : Option (String × String)) (m : Metadata) : Prop where
  state : ∀ state, m.pagingState = some state → state.length ≤ Wire.maxInt32
  table : ∀ table, shared = some table → IsShort table.1 ∧ IsShort table.2
  count : ∀ columns, m.columns = some columns → columns.length = m.columnCount.toNat
  positions : ∀ columns, m.columns = some columns →
    columns.map (·.index) = List.range' 0 columns.length
  columns : ∀ columns, m.columns = some columns → ∀ column ∈ columns, column.Fits limit shared

theorem Fits.sendable {m : Metadata} (h : m.Fits limit shared) : m.Sendable limit shared := by
  refine ⟨h.state, h.count, fun columns hcolumns => ⟨h.table, ?_, fun column hmem => ?_⟩⟩
  · rw [h.count columns hcolumns]
    exact m.columnCount.toNat_lt
  · exact (h.columns columns hcolumns column hmem).sendable

theorem reads_bytes {m : Metadata} (h : m.Fits limit shared) :
    Reads (read limit) (m.bytes shared) m := by
  have hread := (needsBytes_read h.sendable).reads
  obtain ⟨columnCount, pagingState, columns⟩ := m
  cases columns with
  | none => exact hread
  | some columns =>
    rw [described, numbered, Option.map_some, Option.map_some,
      Columns.described_eq (h.columns columns rfl), Columns.numbered_eq (h.positions columns rfl)]
      at hread
    exact hread

end Metadata

/-! ## Rows -/

namespace Rows

/-- The cells of some rows: null, or bytes behind their length. -/
def cellsBytes (rows : List (List (Option Bytes))) : Bytes :=
  rows.flatMap fun row => row.flatMap fun cell => cell.elim Wire.null Wire.writeBytes

/-- A page of rows as it is written. -/
def bytesOf (shared : Option (String × String)) (m : Metadata)
    (rows : List (List (Option Bytes))) : Bytes :=
  m.bytes shared ++ (Bytes.ofUInt32 (UInt32.ofNat rows.length) ++ cellsBytes rows)

/-- Whatever comes before the page, its cells are found behind its metadata and its count. -/
theorem ofBody_bytesOf {limit : Nat} {shared : Option (String × String)} {m : Metadata}
    (h : m.Fits limit shared) {rows : List (List (Option Bytes))}
    (hcount : rows.length < 2 ^ 32) (front : Bytes) :
    ofBody limit (front ++ bytesOf shared m rows) front.length =
      .ok ⟨m, rows.length, cellsBytes rows⟩ := by
  have hrows : (UInt32.ofNat rows.length).toNat = rows.length :=
    UInt32.toNat_ofNat_of_lt' hcount
  have hcells (head : Bytes) :
      (head ++ cellsBytes rows).drop ((head ++ cellsBytes rows).length -
        (cellsBytes rows).length) = cellsBytes rows := by
    rw [List.length_append, Nat.add_sub_cancel, List.drop_left]
  rw [ofBody, List.drop_left, bytesOf, outcome_bind (Metadata.reads_bytes h),
    outcome_bind (FrameReader.reads_wire (reads_uint32 _)), hrows]
  have hbody := hcells (front ++ (m.bytes shared ++ Bytes.ofUInt32 (UInt32.ofNat rows.length)))
  simp only [List.append_assoc] at hbody
  exact congrArg (fun content => Except.ok (Rows.mk m rows.length content)) hbody

/-- A page that comes with columns comes with as many as it announces. -/
theorem length_columns {limit offset : Nat} {body : Bytes} {rows : Rows}
    (h : ofBody limit body offset = .ok rows) {columns : Columns}
    (hcolumns : rows.metadata.columns = some columns) :
    columns.length = rows.metadata.columnCount.toNat := by
  obtain ⟨_, h⟩ := Reader.outcome_eq_ok.mp h
  obtain ⟨m, _, hm, h⟩ := Reader.bind_eq_ok.mp h
  obtain ⟨count, _, _, h⟩ := Reader.bind_eq_ok.mp h
  obtain ⟨_, _, _, h⟩ := Reader.bind_eq_ok.mp h
  cases h
  exact Metadata.length_of_read hm hcolumns

end Rows

end CqlClient
