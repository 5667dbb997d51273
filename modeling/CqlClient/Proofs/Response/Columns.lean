import CqlClient.Proofs.CqlType.Described
import CqlClient.Response.Result

/-!
# Columns read back

How a server describes columns, those of results and those of bind markers. `Column.bytes` is one
column, `Metadata.bytes` what comes before the rows of a page, and `Preparation.bytes` the reply to
a statement that was prepared, with its markers and the columns of its result behind each other.

* `FrameReader.NeedsBytes`: a reader reads something from the bytes written for it, and refuses less
  because bytes are missing;
* `Columns.needsBytes_read`: so it is with columns, the position of each being its index;
* `Metadata.needsBytes_read`: with what comes before rows;
* `Columns.length_of_read`, `Metadata.length_of_read`: whatever is read, the columns are as many as
  announced;
* `Preparation.needsBytes_read`: with prepared statements;
* `Columns.indexOf?_eq_some`: a name stands for the last column that carries it;
* `Columns.read_described`: all of that.
-/

namespace CqlClient

open Descriptor (IsShort)

/-! ## Readers that refuse less than all bytes -/

/-- The input ended too early, or was found too short for the columns announced. -/
def FrameFault.lacksBytes : FrameFault → Bool
  | wire .endOfInput | descriptor (.truncated .endOfInput) | tooManyColumns .. => true
  | _ => false

namespace FrameReader

variable {α β : Type}

/-- The reader reads `a` from `front`, whatever follows; every shorter part of it is refused for the
bytes it lacks. -/
structure NeedsBytes (r : FrameReader α) (front : Bytes) (a : α) : Prop where
  reads : ∀ rest, r (front ++ rest) = .ok a rest
  cut : ∀ part : Bytes, part <+: front → part ≠ front →
    ∃ fault left, r part = .error fault left ∧ fault.lacksBytes = true

/-- The refusals differ, but they are the same fault once they are only asked for missing bytes. -/
theorem needsBytes_iff {r : FrameReader α} {front : Bytes} {a : α} :
    NeedsBytes r front a ↔ NeedsAll (r.mapError FrameFault.lacksBytes) front a true := by
  constructor
  · intro h
    refine ⟨Reads.mapError _ h.reads, fun part hpart hne => ?_⟩
    obtain ⟨fault, left, hread, hfault⟩ := h.cut part hpart hne
    exact ⟨left, Reader.mapError_eq_error.mpr ⟨fault, hread, hfault⟩⟩
  · intro h
    refine ⟨fun rest => Reader.mapError_eq_ok.mp (h.reads rest), fun part hpart hne => ?_⟩
    obtain ⟨left, hleft⟩ := h.cut part hpart hne
    obtain ⟨fault, hread, hfault⟩ := Reader.mapError_eq_error.mp hleft
    exact ⟨fault, left, hread, hfault⟩

theorem needsBytes_pure (a : α) : NeedsBytes (pure a) [] a :=
  needsBytes_iff.mpr (needsAll_pure a true)

theorem needsBytes_wire {r : Wire.WireReader α} {front : Bytes} {a : α}
    (h : NeedsAll r front a .endOfInput) : NeedsBytes (wire r) front a :=
  needsBytes_iff.mpr ((h.mapError FrameFault.wire).mapError _)

theorem NeedsBytes.bind {r : FrameReader α} {f : α → FrameReader β} {front back : Bytes} {a : α}
    {b : β} (hr : NeedsBytes r front a) (hf : NeedsBytes (f a) back b) :
    NeedsBytes (r >>= f) (front ++ back) b := by
  rw [needsBytes_iff, Reader.mapError, adaptExcept_bind]
  exact NeedsAll.bind (needsBytes_iff.mp hr) (needsBytes_iff.mp hf)

theorem NeedsBytes.map {r : FrameReader α} {front : Bytes} {a : α} (g : α → β)
    (hr : NeedsBytes r front a) : NeedsBytes (r >>= fun a => pure (g a)) front (g a) := by
  rw [needsBytes_iff, Reader.mapError, adaptExcept_bind]
  exact NeedsAll.map g (needsBytes_iff.mp hr)

end FrameReader

open FrameReader (NeedsBytes needsBytes_iff needsBytes_pure needsBytes_wire)

/-! ## Columns -/

/-- Keyspace and table are written with a column unless all columns share them. -/
def Column.bytes (shared : Option (String × String)) (column : Column) : Bytes :=
  let table := Wire.writeString column.keyspace ++ Wire.writeString column.table
  shared.elim table (fun _ => []) ++ (Wire.writeString column.name ++ column.type.wire)

namespace Column

/-- The column as a server describes it. -/
def described (column : Column) : Column := { column with type := column.type.described }

/-- The column at a position. -/
def moved (column : Column) (index : Nat) : Column := { column with index }

/-- The names of a column fit their lengths, its type can be described and is not nested too deep,
and its table is the one that all columns share, if they do. -/
structure Sendable (limit : Nat) (shared : Option (String × String)) (column : Column) : Prop where
  keyspace : IsShort column.keyspace
  table : IsShort column.table
  name : IsShort column.name
  type : column.type.Describable
  height : column.type.height ≤ limit
  shared : ∀ table, shared = some table → table = (column.keyspace, column.table)

end Column

namespace Columns

variable {limit : Nat} {shared : Option (String × String)}

/-- The columns as a server describes them. -/
def described (columns : Columns) : Columns := columns.map Column.described

/-- Every column with its position as its index. -/
def numbered (columns : Columns) : Columns := columns.mapIdx fun index column => column.moved index

/-- All columns can be sent, and their number and the table they share too. -/
structure Sendable (limit : Nat) (shared : Option (String × String)) (columns : Columns) :
    Prop where
  table : ∀ table, shared = some table → IsShort table.1 ∧ IsShort table.2
  count : columns.length < 2 ^ 32
  each : ∀ column ∈ columns, column.Sendable limit shared

/-- A shared table may be written with each column all the same. -/
theorem Sendable.layout {columns : Columns} (h : columns.Sendable limit shared)
    {layout : Option (String × String)} (hlayout : layout ∈ [shared, none]) :
    columns.Sendable limit layout := by
  simp only [List.mem_cons, List.not_mem_nil, or_false] at hlayout
  rcases hlayout with rfl | rfl
  · exact h
  · refine ⟨by simp, h.count, fun column hmem => ?_⟩
    obtain ⟨hkeyspace, htable, hname, htype, hheight, -⟩ := h.each column hmem
    exact ⟨hkeyspace, htable, hname, htype, hheight, by simp⟩

theorem needsBytes_readColumn {column : Column} (h : column.Sendable limit shared) (index : Nat) :
    NeedsBytes (readColumn limit shared index) (column.described.bytes shared)
      (column.moved index) := by
  have htype : NeedsBytes ((Descriptor.read limit).mapError FrameFault.descriptor)
      column.type.described.wire column.type :=
    needsBytes_iff.mpr
      (((Descriptor.needsAll_described h.type (Nat.lt_succ_of_le h.height)).mapError _).mapError _)
  refine NeedsBytes.bind (a := (column.keyspace, column.table)) ?_ ?_
  · cases shared with
    | some table =>
      rw [h.shared table rfl]
      exact needsBytes_pure _
    | none =>
      exact (needsBytes_wire (needsAll_string h.keyspace)).bind
        ((needsBytes_wire (needsAll_string h.table)).map _)
  · exact (needsBytes_wire (needsAll_string h.name)).bind (htype.map _)

theorem needsBytes_mapM {columns : Columns} (h : ∀ column ∈ columns, column.Sendable limit shared)
    (index : Nat) :
    NeedsBytes ((List.range' index columns.length).mapM (readColumn limit shared))
      (columns.described.flatMap (Column.bytes shared))
      (columns.mapIdx fun i column => column.moved (index + i)) := by
  -- The columns behind the first are counted from one more.
  induction columns generalizing index with
  | nil => exact needsBytes_pure []
  | cons column columns ih =>
    rw [List.forall_mem_cons] at h
    have hlater : (fun i (column : Column) => column.moved (index + 1 + i)) =
        fun i column => column.moved (index + (i + 1)) := by
      funext i column
      rw [Nat.add_assoc, Nat.add_comm 1]
    have hrest := ih h.2 (index + 1)
    rw [hlater] at hrest
    rw [List.length_cons, List.range'_succ, List.mapM_cons, List.mapIdx_cons]
    exact (needsBytes_readColumn h.1 index).bind (hrest.map _)

/-- Every column takes some bytes, so that their number is never found too large. -/
theorem length_le_bytes (shared : Option (String × String)) (columns : Columns) :
    columns.length ≤ (columns.flatMap (Column.bytes shared)).length := by
  induction columns with
  | nil => exact Nat.le_refl 0
  | cons column columns ih =>
    have hname : 2 ≤ (Wire.writeString column.name).length := by
      simp [Wire.writeString, Wire.writeShortBytes, Bytes.length_ofNat]
    simp only [List.flatMap_cons, List.length_append, List.length_cons, Column.bytes]
    omega

/-- Reading columns, once their number is known to be possible or not. -/
theorem read_apply (limit count : Nat) (shared : Option (String × String)) (bytes : Bytes) :
    read limit count shared bytes =
      if count > bytes.length then .error (.tooManyColumns count bytes.length) bytes
      else (List.range' 0 count).mapM (readColumn limit shared) bytes := by
  rw [read_eq]
  show (if count > bytes.length then _ else _ : FrameReader Columns) bytes = _
  split <;> rfl

theorem needsBytes_read {columns : Columns}
    (h : ∀ column ∈ columns, column.Sendable limit shared) :
    NeedsBytes (read limit columns.length shared) (columns.described.flatMap (Column.bytes shared))
      columns.numbered := by
  have heach := needsBytes_mapM h 0
  simp only [Nat.zero_add] at heach
  refine ⟨fun rest => ?_, fun part hpart hne => ?_⟩
  · have hlength := length_le_bytes shared columns.described
    rw [described, List.length_map] at hlength
    have hroom : ¬ columns.length >
        (columns.described.flatMap (Column.bytes shared) ++ rest).length := by
      rw [List.length_append, described]
      omega
    rw [read_apply, if_neg hroom]
    exact heach.reads rest
  · rw [read_apply]
    split
    · exact ⟨_, part, rfl, rfl⟩
    · exact heach.cut part hpart hne

/-- What is read are as many columns as are announced. -/
theorem length_of_read {count : Nat} {bytes rest : Bytes} {columns : Columns}
    (h : read limit count shared bytes = .ok columns rest) :
    columns.length = count := by
  rw [read_apply] at h
  split at h
  · cases h
  · rw [← (made_of_mapM h).1, List.length_range']

/-- The column at the index carries the name, and none behind it does. -/
def IsLast (columns : Columns) (name : String) (index : Nat) : Prop :=
  (∃ column, columns[index]? = some column ∧ column.name = name) ∧
    ∀ later column, columns[later]? = some column → column.name = name → later ≤ index

theorem numbered_append_singleton (columns : Columns) (column : Column) :
    numbered (columns ++ [column]) = numbered columns ++ [column.moved columns.length] := by
  rw [numbered, List.mapIdx_append, List.mapIdx_singleton, Nat.zero_add]
  rfl

/-- The last column is looked at first. -/
theorem indexOf?_append_singleton (columns : Columns) (column : Column) (name : String) :
    indexOf? (numbered (columns ++ [column])) name =
      if column.name = name then some columns.length else indexOf? columns.numbered name := by
  rw [indexOf?, numbered_append_singleton, List.reverse_append, List.reverse_singleton,
    List.singleton_append, List.find?_cons]
  by_cases hname : column.name = name
  · rw [if_pos hname, show ((column.moved columns.length).name == name) = true from
      beq_iff_eq.mpr hname]
    rfl
  · rw [if_neg hname, show ((column.moved columns.length).name == name) = false from
      beq_false_of_ne hname]
    rfl

theorem isLast_append_of_eq {columns : Columns} {column : Column} {name : String} {index : Nat}
    (h : column.name = name) :
    IsLast (columns ++ [column]) name index ↔ columns.length = index := by
  have hlength {i : Nat} {c : Column} (hc : (columns ++ [column])[i]? = some c) :
      i ≤ columns.length := by
    have hlt := (List.getElem?_eq_some_iff.mp hc).1
    rw [List.length_append, List.length_singleton] at hlt
    exact Nat.le_of_lt_succ hlt
  constructor
  · rintro ⟨⟨c, hc, -⟩, hlast⟩
    exact Nat.le_antisymm (hlast _ column List.getElem?_concat_length h) (hlength hc)
  · rintro rfl
    exact ⟨⟨column, List.getElem?_concat_length, h⟩, fun later c hc _ => hlength hc⟩

theorem isLast_append_of_ne {columns : Columns} {column : Column} {name : String} {index : Nat}
    (h : column.name ≠ name) :
    IsLast (columns ++ [column]) name index ↔ columns.IsLast name index := by
  have hsame (i : Nat) (c : Column) (hname : c.name = name) :
      (columns ++ [column])[i]? = some c ↔ columns[i]? = some c := by
    rcases Nat.lt_or_ge i columns.length with hlt | hge
    · rw [List.getElem?_append_left hlt]
    · rw [List.getElem?_append_right hge, List.getElem?_eq_none hge, List.getElem?_singleton]
      refine iff_of_false (fun hc => h ?_) (Option.some_ne_none c).symm
      split at hc
      · cases hc
        exact hname
      · cases hc
  refine and_congr (exists_congr fun c => and_congr_left (hsame index c))
    (forall₂_congr fun later c => ⟨fun hlast hc hname => ?_, fun hlast hc hname => ?_⟩)
  · exact hlast ((hsame later c hname).mpr hc) hname
  · exact hlast ((hsame later c hname).mp hc) hname

theorem indexOf?_eq_some {columns : Columns} {name : String} {index : Nat} :
    columns.numbered.indexOf? name = some index ↔ columns.IsLast name index := by
  induction columns using List.reverseRecOn with
  | nil => simp [numbered, indexOf?, IsLast]
  | append_singleton columns column ih =>
    rw [indexOf?_append_singleton]
    by_cases hname : column.name = name
    · rw [if_pos hname, Option.some_inj, isLast_append_of_eq hname]
    · rw [if_neg hname, ih, isLast_append_of_ne hname]

theorem indexOf?_eq_none {columns : Columns} {name : String} :
    columns.numbered.indexOf? name = none ↔ ∀ column ∈ columns, column.name ≠ name := by
  induction columns using List.reverseRecOn with
  | nil => simp [numbered, indexOf?]
  | append_singleton columns column ih =>
    rw [indexOf?_append_singleton, List.forall_mem_append, List.forall_mem_singleton, ← ih]
    by_cases hname : column.name = name
    · simp [hname]
    · simp [hname]

end Columns

/-! ## Metadata -/

namespace Metadata

/-- The flags say that there is a table for all columns, that there are more pages, and that the
columns are left out. -/
def flags (shared : Option (String × String)) (m : Metadata) : UInt32 :=
  UInt32.ofNat (shared.isSome.toNat + 2 * m.pagingState.isSome.toNat + 4 * m.columns.isNone.toNat)

/-- The table that all columns share. -/
def tableBytes (shared : Option (String × String)) : Bytes :=
  shared.elim [] fun table => Wire.writeString table.1 ++ Wire.writeString table.2

def columnsBytes (shared : Option (String × String)) (columns : Columns) : Bytes :=
  tableBytes shared ++ columns.flatMap (Column.bytes shared)

/-- How metadata is written, given the table that all columns share, if it is written once. -/
def bytes (shared : Option (String × String)) (m : Metadata) : Bytes :=
  Bytes.ofUInt32 (m.flags shared) ++ (Bytes.ofUInt32 m.columnCount ++
    (m.pagingState.elim [] Wire.writeBytes ++ m.columns.elim [] (columnsBytes shared)))

/-- The metadata as a server describes it. -/
def described (m : Metadata) : Metadata := { m with columns := m.columns.map Columns.described }

def numbered (m : Metadata) : Metadata := { m with columns := m.columns.map Columns.numbered }

/-- The paging state and the columns can be sent, and the columns are as many as announced. -/
structure Sendable (limit : Nat) (shared : Option (String × String)) (m : Metadata) : Prop where
  state : ∀ state, m.pagingState = some state → state.length ≤ Wire.maxInt32
  count : ∀ columns, m.columns = some columns → columns.length = m.columnCount.toNat
  columns : ∀ columns, m.columns = some columns → columns.Sendable limit shared

theorem testBit_flags (b₀ b₁ b₂ : Bool) :
    let bits := (UInt32.ofNat (b₀.toNat + 2 * b₁.toNat + 4 * b₂.toNat)).toNat
    bits.testBit 0 = b₀ ∧ bits.testBit 1 = b₁ ∧ bits.testBit 2 = b₂ := by
  revert b₀ b₁ b₂
  decide

theorem needsBytes_readShared {flags : UInt32} {shared : Option (String × String)}
    (hflags : flags.toNat.testBit 0 = shared.isSome)
    (h : ∀ table, shared = some table → IsShort table.1 ∧ IsShort table.2) :
    NeedsBytes (readShared flags) (tableBytes shared) shared := by
  rw [readShared, hflags]
  cases shared with
  | none => exact needsBytes_pure none
  | some table =>
    obtain ⟨hkeyspace, hname⟩ := h table rfl
    exact (needsBytes_wire (needsAll_string hkeyspace)).bind
      ((needsBytes_wire (needsAll_string hname)).map _)

theorem needsBytes_readState {flags : UInt32} {state : Option Bytes}
    (hflags : flags.toNat.testBit 1 = state.isSome)
    (h : ∀ bytes, state = some bytes → bytes.length ≤ Wire.maxInt32) :
    NeedsBytes (readState flags) (state.elim [] Wire.writeBytes) state := by
  rw [readState, hflags]
  cases state with
  | none => exact needsBytes_pure none
  | some bytes => exact needsBytes_wire (needsAll_optionalBytes (h bytes rfl))

variable {limit : Nat} {shared : Option (String × String)}

theorem needsBytes_read {m : Metadata} (h : m.Sendable limit shared) :
    NeedsBytes (read limit) (m.described.bytes shared) m.numbered := by
  obtain ⟨hshared, hmore, hnone⟩ :=
    testBit_flags shared.isSome m.pagingState.isSome m.columns.isNone
  have hflags : m.described.flags shared = m.flags shared := by
    rw [flags, described, Option.isNone_map, flags]
  rw [bytes, hflags]
  refine (needsBytes_wire (needsAll_uint32 _)).bind ?_
  refine (needsBytes_wire (needsAll_uint32 _)).bind ?_
  refine (needsBytes_readState hmore h.state).bind ?_
  rw [flags, hnone]
  rcases m with ⟨columnCount, pagingState, _ | columns⟩
  · exact needsBytes_pure _
  · have hsendable := h.columns columns rfl
    have hcolumns := Columns.needsBytes_read hsendable.each
    rw [h.count columns rfl] at hcolumns
    exact (needsBytes_readShared hshared hsendable.table).bind (hcolumns.map _)

theorem length_of_read {bytes rest : Bytes} {m : Metadata}
    (h : read limit bytes = .ok m rest) {columns : Columns} (hcolumns : m.columns = some columns) :
    columns.length = m.columnCount.toNat := by
  obtain ⟨flags, _, _, h⟩ := Reader.bind_eq_ok.mp h
  obtain ⟨count, _, _, h⟩ := Reader.bind_eq_ok.mp h
  obtain ⟨state, _, _, h⟩ := Reader.bind_eq_ok.mp h
  by_cases hnone : flags.toNat.testBit 2 = true
  · rw [if_pos hnone] at h
    cases h
    cases hcolumns
  · rw [if_neg hnone] at h
    obtain ⟨shared, _, _, h⟩ := Reader.bind_eq_ok.mp h
    obtain ⟨made, _, hmade, h⟩ := Reader.bind_eq_ok.mp h
    cases h
    cases hcolumns
    exact Columns.length_of_read hmade

end Metadata

/-! ## Prepared statements -/

/-- What the reply to a statement that was prepared is written from. -/
structure Preparation where
  id : Bytes
  flags : UInt32
  partitionKey : List UInt16
  /-- The table that all markers share, if it is written once. -/
  shared : Option (String × String)
  markers : Columns
  /-- The table that all columns of the result share, if it is written once. -/
  resultShared : Option (String × String)
  result : Metadata

namespace Preparation

def bytes (p : Preparation) : Bytes :=
  Wire.writeShortBytes p.id ++ (Bytes.ofUInt32 p.flags ++
    (Bytes.ofUInt32 (UInt32.ofNat p.markers.length) ++ (Bytes.ofNat 4 p.partitionKey.length ++
      (p.partitionKey.flatMap Bytes.ofUInt16 ++
        (Metadata.columnsBytes p.shared p.markers.described ++
          p.result.described.bytes p.resultShared)))))

/-- Lengths, counts and the positions of the partition key fit, and the lowest flag says whether the
markers share a table. The other flags are the server's. -/
structure Fits (limit : Nat) (p : Preparation) : Prop where
  id : p.id.length ≤ Wire.maxUInt16
  flags : p.flags.toNat.testBit 0 = p.shared.isSome
  keyCount : p.partitionKey.length ≤ Wire.maxInt32
  keys : ∀ key ∈ p.partitionKey, key.toNat < 2 ^ 15
  markers : p.markers.Sendable limit p.shared
  result : p.result.Sendable limit p.resultShared

/-- The statement that the reply is about. It is a lightweight transaction if the flags bear the
mark that was agreed on. -/
def statement (extensions : Extensions) (p : Preparation) : Prepared where
  id := p.id
  partitionKey := p.partitionKey
  markers := p.markers.numbered
  result := p.result.columns.map Columns.numbered
  isLwt := extensions.lwtMask.any fun mask => p.flags &&& mask != 0

theorem needsBytes_readKeyIndex {key : UInt16} (h : key.toNat < 2 ^ 15) :
    NeedsBytes Prepared.readKeyIndex (Bytes.ofUInt16 key) key := by
  have hint : key.toInt16.toInt = key.toNat := by
    refine BitVec.toInt_eq_toNat_of_lt ?_
    show 2 * key.toNat < 2 ^ 16
    omega
  have hpositive : ¬ key.toInt16 < 0 := by
    rw [Int16.lt_iff_toInt_lt, hint]
    show ¬ (key.toNat : Int) < 0
    omega
  rw [← UInt16.toUInt16_toInt16 key]
  refine (needsBytes_wire (needsAll_int16 key.toInt16)).bind ?_
  rw [if_neg hpositive]
  exact needsBytes_pure _

theorem needsBytes_keys {keys : List UInt16} (h : ∀ key ∈ keys, key.toNat < 2 ^ 15) :
    NeedsBytes (Reader.times keys.length Prepared.readKeyIndex) (keys.flatMap Bytes.ofUInt16)
      keys := by
  induction keys with
  | nil => exact needsBytes_pure []
  | cons key keys ih =>
    rw [List.forall_mem_cons] at h
    rw [List.length_cons, Reader.times_succ]
    exact (needsBytes_readKeyIndex h.1).bind ((ih h.2).map _)

theorem needsBytes_read {limit : Nat} {p : Preparation} (h : p.Fits limit)
    (extensions : Extensions) :
    NeedsBytes (Prepared.read extensions limit) p.bytes (p.statement extensions) := by
  have hcount : (UInt32.ofNat p.markers.length).toNat = p.markers.length :=
    UInt32.toNat_ofNat_of_lt' h.markers.count
  have hkeys : (Int32.ofNat p.partitionKey.length).toInt.toNat = p.partitionKey.length := by
    rw [toInt_int32_ofNat h.keyCount, Int.toNat_natCast]
  have hmarkers := Columns.needsBytes_read h.markers.each
  rw [bytes, ← ofInt32_ofNat h.keyCount, Metadata.columnsBytes, List.append_assoc]
  refine (needsBytes_wire (needsAll_shortBytes h.id)).bind ?_
  refine (needsBytes_wire (needsAll_uint32 _)).bind ?_
  refine (needsBytes_wire (needsAll_uint32 _)).bind ?_
  refine (needsBytes_wire (needsAll_int32 _)).bind ?_
  rw [hkeys, hcount]
  refine (needsBytes_keys h.keys).bind ?_
  refine (Metadata.needsBytes_readShared h.flags h.markers.table).bind ?_
  exact hmarkers.bind ((Metadata.needsBytes_read h.result).map _)

end Preparation

/-- Columns are read back from their description and from nothing less, in their order and each with
its position, whether the table that all share is written once or with each of them; a name finds
the last column that carries it, or nothing. A prepared statement is read back with the columns of
its markers and of its result, and is refused if any of it is missing. -/
theorem Columns.read_described (limit : Nat) :
    (∀ (columns : Columns) (shared : Option (String × String)), columns.Sendable limit shared →
      (∀ layout ∈ [shared, none],
        NeedsBytes (read limit columns.length layout)
          (columns.described.flatMap (Column.bytes layout)) columns.numbered) ∧
      ∀ name,
        (∀ index, columns.numbered.indexOf? name = some index ↔ columns.IsLast name index) ∧
        (columns.numbered.indexOf? name = none ↔ ∀ column ∈ columns, column.name ≠ name)) ∧
    ∀ (extensions : Extensions) (p : Preparation), p.Fits limit →
      NeedsBytes (Prepared.read extensions limit) p.bytes (p.statement extensions) := by
  refine ⟨fun columns shared h => ⟨fun layout hlayout => ?_, fun name => ⟨fun index => ?_, ?_⟩⟩,
    fun extensions p h => Preparation.needsBytes_read h extensions⟩
  · exact needsBytes_read (h.layout hlayout).each
  · exact indexOf?_eq_some
  · exact indexOf?_eq_none

/-- Two columns of one name, the latter a vector. -/
def Columns.twoNamed : Columns :=
  [⟨"ks", "tb", "v", 0, .list (.native .int)⟩, ⟨"ks", "tb", "v", 1, .vector (.native .float) 3⟩]

/-- A transaction with one marker in its partition key, its result columns written one by one. -/
def Preparation.ofTransaction : Preparation where
  id := [0xAB, 0xCD]
  flags := 0x80000001
  partitionKey := [1]
  shared := some ("ks", "tb")
  markers := .twoNamed
  resultShared := none
  result := ⟨2, none, some .twoNamed⟩

theorem Columns.read_described_twoNamed :
    NeedsBytes (read 1 2 (some ("ks", "tb")))
      (Columns.described .twoNamed |>.flatMap (Column.bytes (some ("ks", "tb")))) .twoNamed ∧
    NeedsBytes (read 1 2 none)
      (Columns.described .twoNamed |>.flatMap (Column.bytes none)) .twoNamed ∧
    Columns.indexOf? .twoNamed "v" = some 1 ∧ Columns.indexOf? .twoNamed "w" = none ∧
    NeedsBytes (Prepared.read ⟨none, some 0x80000000⟩ 1) Preparation.ofTransaction.bytes
      ⟨[0xAB, 0xCD], [1], .twoNamed, some .twoNamed, true⟩ := by
  have hcolumn {type : CqlType} {index : Nat} (htype : type.Describable)
      (hheight : type.height ≤ 1) :
      Column.Sendable 1 (some ("ks", "tb")) ⟨"ks", "tb", "v", index, type⟩ := by
    have hkeyspace : IsShort "ks" := by decide
    have htable : IsShort "tb" := by decide
    have hname : IsShort "v" := by decide
    refine ⟨hkeyspace, htable, hname, htype, hheight, ?_⟩
    rintro _ ⟨⟩
    rfl
  have hvector : (CqlType.vector (.native .float) 3).Describable :=
    .vector (.native .float) 3 (by decide)
  have hmarkers : Columns.twoNamed.Sendable 1 (some ("ks", "tb")) := by
    refine ⟨?_, by decide, ?_⟩
    · rintro _ ⟨⟩
      decide
    · simp only [twoNamed, List.forall_mem_cons]
      exact ⟨hcolumn (.list (.native .int)) (by decide), hcolumn hvector (by decide), by simp⟩
  have hresult : Metadata.Sendable 1 none ⟨2, none, some .twoNamed⟩ := by
    refine ⟨?_, ?_, ?_⟩
    · rintro _ ⟨⟩
    · rintro _ ⟨⟩
      rfl
    · rintro _ ⟨⟩
      exact hmarkers.layout (by simp)
  have hfits : Preparation.ofTransaction.Fits 1 :=
    ⟨by decide, by decide, by decide, by simp [Preparation.ofTransaction], hmarkers, hresult⟩
  obtain ⟨hread, hnames⟩ := (read_described 1).1 twoNamed _ hmarkers
  have hprepared := (read_described 1).2 ⟨none, some 0x80000000⟩ _ hfits
  have hlast : twoNamed.IsLast "v" 1 := by
    refine ⟨⟨_, rfl, rfl⟩, fun later column hcolumn _ => ?_⟩
    exact Nat.le_of_lt_succ (List.getElem?_eq_some_iff.mp hcolumn).1
  have hother : ∀ column ∈ twoNamed, column.name ≠ "w" := by
    simp [twoNamed]
  exact ⟨hread _ (by simp), hread _ (by simp), ((hnames "v").1 1).mpr hlast,
    (hnames "w").2.mpr hother, hprepared⟩

end CqlClient
