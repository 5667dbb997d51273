import CqlClient.CqlType.Descriptor
import CqlClient.Proofs.Fronts
import Mathlib.Data.List.Basic

/-!
# The binary form of types

`CqlType.wire` is how a type without custom classes is written in column metadata; `CqlType.Written`
lets every text be written with its older code too. The reader of types is compared with them:

* `needsAll_readWith`: a type that is not nested too deep is read from what is written for it, and
  from nothing less;
* `failsOn_readWith`: one that is nested too deep is refused for its depth;
* `accepts_readWith`: unless a class is met, nothing but what is written for a type is read as it;
* `read_wire`: all of that, for the types in column metadata.
-/

namespace CqlClient

namespace CqlType

mutual

/-- How many levels a type opens below its own. -/
def height : CqlType → Nat
  | native _ | custom _ => 0
  | list element | set element | vector element _ => element.height + 1
  | map key value => max key.height value.height + 1
  | tuple elements => heights elements
  | udt _ _ fields => fieldHeights fields

def heights : List CqlType → Nat
  | [] => 0
  | type :: types => max (type.height + 1) (heights types)

def fieldHeights : List (String × CqlType) → Nat
  | [] => 0
  | (_, type) :: fields => max (type.height + 1) (fieldHeights fields)

end

theorem heights_le {types : List CqlType} {n : Nat} :
    heights types ≤ n ↔ ∀ type ∈ types, type.height < n := by
  induction types with
  | nil => simp [heights]
  | cons type types ih =>
    rw [heights, Nat.max_le, ih, List.forall_mem_cons]
    rfl

theorem exists_of_lt_heights {types : List CqlType} {n : Nat} (h : n < heights types) :
    ∃ type ∈ types, n ≤ type.height := by
  by_contra hnone
  refine Nat.not_lt.mpr (heights_le.mpr fun type hmem => ?_) h
  exact Nat.lt_of_not_le fun hle => hnone ⟨type, hmem, hle⟩

theorem fieldHeights_le {fields : List (String × CqlType)} {n : Nat} :
    fieldHeights fields ≤ n ↔ ∀ field ∈ fields, field.2.height < n := by
  induction fields with
  | nil => simp [fieldHeights]
  | cons field fields ih =>
    rw [fieldHeights, Nat.max_le, ih, List.forall_mem_cons]
    rfl

theorem exists_of_lt_fieldHeights {fields : List (String × CqlType)} {n : Nat}
    (h : n < fieldHeights fields) : ∃ field ∈ fields, n ≤ field.2.height := by
  by_contra hnone
  refine Nat.not_lt.mpr (fieldHeights_le.mpr fun field hmem => ?_) h
  exact Nat.lt_of_not_le fun hle => hnone ⟨field, hmem, hle⟩

end CqlType

/-! ## Types as they are written -/

namespace Descriptor

/-- The code in front of a type. -/
def writeCode (code : TypeCode) : Bytes := Bytes.ofUInt16 code.wireCode

/-- A count of at most 16 bits, and the parts that it counts. -/
def writeCounted (parts : List Bytes) : Bytes := Bytes.ofNat 2 parts.length ++ parts.flatten

/-- A field of a user type, given what is written for its type. -/
def writeField (field : String × CqlType) (part : Bytes) : Bytes :=
  Wire.writeString field.1 ++ part

/-- What follows the code of a user type, given what is written for the types of its fields. -/
def writeFields (keyspace name : String) (fields : List (String × CqlType)) (parts : List Bytes) :
    Bytes :=
  Wire.writeString keyspace ++ (Wire.writeString name ++
    writeCounted (List.zipWith writeField fields parts))

/-- A text that its 16-bit length can announce. -/
def IsShort (s : String) : Prop := (Utf8.encode s).length ≤ Wire.maxUInt16

instance (s : String) : Decidable (IsShort s) := inferInstanceAs (Decidable (_ ≤ _))

end Descriptor

open Descriptor

namespace CqlType

mutual

/-- How a type is written, if it is built of native types, lists, sets, maps, tuples and user types:
vectors are written as custom classes, and these by name alone. -/
def wire : CqlType → Bytes
  | native type => writeCode (.native type)
  | custom className => writeCode .custom ++ Wire.writeString className
  | list element => writeCode .list ++ element.wire
  | set element => writeCode .set ++ element.wire
  | map key value => writeCode .map ++ (key.wire ++ value.wire)
  | tuple elements => writeCode .tuple ++ writeCounted (wires elements)
  | udt keyspace name fields =>
    writeCode .udt ++ writeFields keyspace name fields (fieldWires fields)
  | vector .. => writeCode .vector

def wires : List CqlType → List Bytes
  | [] => []
  | type :: types => type.wire :: wires types

def fieldWires : List (String × CqlType) → List Bytes
  | [] => []
  | (_, type) :: fields => type.wire :: fieldWires fields

end

/-- The types without custom classes or vectors whose names and counts fit 16 bits. -/
inductive Writable : CqlType → Prop
  | native (type : Native) : Writable (.native type)
  | list {element : CqlType} (part : Writable element) : Writable (.list element)
  | set {element : CqlType} (part : Writable element) : Writable (.set element)
  | map {key value : CqlType} (keys : Writable key) (values : Writable value) :
    Writable (.map key value)
  | tuple {types : List CqlType} (count : types.length ≤ Wire.maxUInt16)
    (each : ∀ type ∈ types, Writable type) : Writable (.tuple types)
  | udt {keyspace name : String} {fields : List (String × CqlType)} (owner : IsShort keyspace)
    (short : IsShort name) (count : fields.length ≤ Wire.maxUInt16)
    (names : ∀ field ∈ fields, IsShort field.1) (each : ∀ field ∈ fields, Writable field.2) :
    Writable (.udt keyspace name fields)

/-- The bytes are what is written for the type, any text being written with either of its codes. -/
inductive Written : CqlType → Bytes → Prop
  | native (type : Native) : Written (.native type) (writeCode (.native type))
  | varchar : Written (.native .text) (writeCode .varchar)
  | list {element : CqlType} {part : Bytes} (written : Written element part) :
    Written (.list element) (writeCode .list ++ part)
  | set {element : CqlType} {part : Bytes} (written : Written element part) :
    Written (.set element) (writeCode .set ++ part)
  | map {key value : CqlType} {front back : Bytes} (keys : Written key front)
    (values : Written value back) : Written (.map key value) (writeCode .map ++ (front ++ back))
  | tuple {types : List CqlType} {parts : List Bytes} (count : types.length ≤ Wire.maxUInt16)
    (width : types.length = parts.length)
    (each : ∀ pair ∈ types.zip parts, Written pair.1 pair.2) :
    Written (.tuple types) (writeCode .tuple ++ writeCounted parts)
  | udt {keyspace name : String} {fields : List (String × CqlType)} {parts : List Bytes}
    (owner : IsShort keyspace) (short : IsShort name) (count : fields.length ≤ Wire.maxUInt16)
    (width : fields.length = parts.length) (names : ∀ field ∈ fields, IsShort field.1)
    (each : ∀ pair ∈ fields.zip parts, Written pair.1.2 pair.2) :
    Written (.udt keyspace name fields) (writeCode .udt ++ writeFields keyspace name fields parts)

end CqlType

theorem wires_eq (types : List CqlType) : CqlType.wires types = types.map CqlType.wire := by
  induction types with
  | nil => rfl
  | cons type types ih => rw [CqlType.wires, ih, List.map_cons]

theorem fieldWires_eq (fields : List (String × CqlType)) :
    CqlType.fieldWires fields = fields.map fun field => field.2.wire := by
  induction fields with
  | nil => rfl
  | cons field fields ih => rw [CqlType.fieldWires, ih, List.map_cons]

theorem mem_zip_map {α β : Type} {f : α → β} {as : List α} {pair : α × β}
    (h : pair ∈ as.zip (as.map f)) : pair.1 ∈ as ∧ pair.2 = f pair.1 := by
  rw [← List.map_prod_left_eq_zip, List.mem_map] at h
  obtain ⟨a, ha, rfl⟩ := h
  exact ⟨ha, rfl⟩

/-- What is written for a type is one of the ways of writing it. -/
theorem CqlType.Writable.written {type : CqlType} (h : type.Writable) : type.Written type.wire := by
  induction h with
  | native type => exact .native type
  | list _ ih => exact .list ih
  | set _ ih => exact .set ih
  | map _ _ ihk ihv => exact .map ihk ihv
  | tuple hcount _ ih =>
    rw [CqlType.wire, wires_eq]
    refine .tuple hcount (by simp) fun pair hpair => ?_
    obtain ⟨hmem, hpart⟩ := mem_zip_map hpair
    rw [hpart]
    exact ih pair.1 hmem
  | udt howner hshort hcount hnames _ ih =>
    rw [CqlType.wire, fieldWires_eq]
    refine .udt howner hshort hcount (by simp) hnames fun pair hpair => ?_
    obtain ⟨hmem, hpart⟩ := mem_zip_map hpair
    rw [hpart]
    exact ih pair.1 hmem

/-! ## Reading what is written -/

namespace Descriptor

/-- What is said of a type that is cut short. -/
def cutShort : DescriptorFault := .truncated .endOfInput

section Parts

variable {α β : Type} {item : TypeReader α} {items : List α} {parts : List Bytes}

theorem needsAll_code (code : TypeCode) :
    NeedsAll (wire Wire.uint16) (writeCode code) code.wireCode cutShort :=
  (needsAll_uint16 code.wireCode).mapError _

theorem needsAll_name {s : String} (h : IsShort s) :
    NeedsAll (wire Wire.string) (Wire.writeString s) s cutShort :=
  (needsAll_string h).mapError _

theorem needsAll_count {n : Nat} (h : n ≤ Wire.maxUInt16) :
    NeedsAll (wire Wire.uint16) (Bytes.ofNat 2 n) (UInt16.ofNat n) cutShort := by
  rw [← ofUInt16_ofNat h]
  exact (needsAll_uint16 _).mapError _

theorem times_parts (hcount : items.length ≤ Wire.maxUInt16)
    (hwidth : items.length = parts.length) :
    Reader.times (UInt16.ofNat parts.length).toNat item = items.mapM fun _ => item := by
  rw [← hwidth, toNat_uint16_ofNat hcount, times_length]

theorem needsAll_counted (hcount : items.length ≤ Wire.maxUInt16)
    (hwidth : items.length = parts.length)
    (heach : ∀ pair ∈ items.zip parts, NeedsAll item pair.2 pair.1 cutShort) (g : List α → β) :
    NeedsAll (do
      let count ← wire Wire.uint16
      let as ← Reader.times count.toNat item
      return g as) (writeCounted parts) (g items) cutShort := by
  refine (needsAll_count (hwidth ▸ hcount)).bind ?_
  rw [times_parts hcount hwidth]
  have h := needsAll_mapM (fun _ => item) id hwidth heach
  rw [List.map_id] at h
  exact h.map g

theorem failsOn_counted {e : DescriptorFault} (hcount : items.length ≤ Wire.maxUInt16)
    (hwidth : items.length = parts.length)
    (heach : ∀ pair ∈ items.zip parts, Reads item pair.2 pair.1 ∨ FailsOn item pair.2 e)
    (hfails : ∃ pair ∈ items.zip parts, FailsOn item pair.2 e) (g : List α → β) :
    FailsOn (do
      let count ← wire Wire.uint16
      let as ← Reader.times count.toNat item
      return g as) (writeCounted parts) e := by
  refine (needsAll_count (hwidth ▸ hcount)).reads.failsOn ?_
  rw [times_parts hcount hwidth]
  exact (failsOn_mapM (fun _ => item) id heach hfails).map g

theorem accepts_counted {P : Bytes → α → Prop} {Q : Bytes → β → Prop} (hitem : Accepts item P)
    {g : List α → β}
    (hg : ∀ (as : List α) (parts : List Bytes), as.length ≤ Wire.maxUInt16 →
      as.length = parts.length → (∀ pair ∈ as.zip parts, P pair.2 pair.1) →
      Q (writeCounted parts) (g as)) :
    Accepts (do
      let count ← wire Wire.uint16
      let as ← Reader.times count.toNat item
      return g as) Q := by
  refine (accepts_uint16.mapError _).bind ?_
  rintro _ count rfl
  refine (hitem.times count.toNat).map ?_
  rintro _ as ⟨hcount, parts, rfl, hlen, heach⟩
  have hmax : as.length ≤ Wire.maxUInt16 := by
    have hlt := count.toNat_lt
    simp only [Wire.maxUInt16]
    omega
  have hparts : Bytes.ofUInt16 count ++ parts.flatten = writeCounted parts := by
    rw [writeCounted, ← hlen, hcount]
    rfl
  rw [hparts]
  exact hg as parts hmax hlen heach

end Parts

variable {classes : Nat → TypeReader CqlType} {limit : Nat}

/-- A level that may be opened: the code, then what the code calls for. -/
theorem needsAll_level {height room : Nat} {code : TypeCode} {body : Bytes} {type : CqlType}
    (hroom : height < room)
    (h : ∀ below, height ≤ below →
      NeedsAll (readBody (classes below) (readWith classes limit below) code.wireCode) body type
        cutShort) :
    NeedsAll (readWith classes limit room) (writeCode code ++ body) type cutShort := by
  cases room with
  | zero => exact absurd hroom (Nat.not_lt_zero height)
  | succ below => exact (needsAll_code code).bind (h below (Nat.le_of_lt_succ hroom))

/-- A level that leaves too few, unless it may not be opened itself. -/
theorem failsOn_level {height room : Nat} {code : TypeCode} {body : Bytes} (hroom : room ≤ height)
    (h : ∀ below, below < height →
      FailsOn (readBody (classes below) (readWith classes limit below) code.wireCode) body
        (.depthExceeded limit)) :
    FailsOn (readWith classes limit room) (writeCode code ++ body) (.depthExceeded limit) := by
  cases room with
  | zero => exact fun rest => ⟨_, rfl⟩
  | succ below => exact (needsAll_code code).reads.failsOn (h below hroom)

theorem readBody_native (readClass nested : TypeReader CqlType) (type : Native) :
    readBody readClass nested (TypeCode.native type).wireCode = pure (.native type) := by
  rw [readBody, TypeCode.ofWire?_wireCode (by simp)]
  rfl

theorem length_zipWith_writeField {fields : List (String × CqlType)} {parts : List Bytes}
    (h : fields.length = parts.length) :
    fields.length = (List.zipWith writeField fields parts).length := by
  rw [List.length_zipWith, ← h, Nat.min_self]

theorem exists_of_mem_fields {fields : List (String × CqlType)} {parts : List Bytes}
    {pair : (String × CqlType) × Bytes}
    (h : pair ∈ fields.zip (List.zipWith writeField fields parts)) :
    ∃ part, (pair.1, part) ∈ fields.zip parts ∧ pair.2 = writeField pair.1 part := by
  induction fields generalizing parts with
  | nil => simp at h
  | cons field fields ih =>
    cases parts with
    | nil => simp at h
    | cons part parts =>
      rw [List.zipWith_cons_cons, List.zip_cons_cons, List.mem_cons] at h
      rcases h with rfl | h
      · exact ⟨part, List.mem_cons_self .., rfl⟩
      · obtain ⟨later, hmem, hpart⟩ := ih h
        exact ⟨later, List.mem_cons_of_mem _ hmem, hpart⟩

theorem needsAll_readField {nested : TypeReader CqlType} {field : String × CqlType} {part : Bytes}
    (hname : IsShort field.1) (h : NeedsAll nested part field.2 cutShort) :
    NeedsAll (readField nested) (writeField field part) field cutShort :=
  (needsAll_name hname).bind (h.map _)

theorem failsOn_readField {nested : TypeReader CqlType} {field : String × CqlType} {part : Bytes}
    {e : DescriptorFault} (hname : IsShort field.1) (h : FailsOn nested part e) :
    FailsOn (readField nested) (writeField field part) e :=
  (needsAll_name hname).reads.failsOn (h.map _)

theorem needsAll_native (type : Native) {room : Nat} (hroom : 0 < room) :
    NeedsAll (readWith classes limit room) (writeCode (.native type)) (.native type) cutShort := by
  rw [← List.append_nil (writeCode _)]
  refine needsAll_level hroom fun below _ => ?_
  rw [readBody_native]
  exact needsAll_pure _ _

theorem needsAll_tuple {types : List CqlType} {parts : List Bytes}
    (hcount : types.length ≤ Wire.maxUInt16) (hwidth : types.length = parts.length) {room : Nat}
    (hroom : (CqlType.tuple types).height < room)
    (heach : ∀ pair ∈ types.zip parts, ∀ below, pair.1.height < below →
      NeedsAll (readWith classes limit below) pair.2 pair.1 cutShort) :
    NeedsAll (readWith classes limit room) (writeCode .tuple ++ writeCounted parts) (.tuple types)
      cutShort := by
  refine needsAll_level hroom fun below hbelow => ?_
  have hlower := CqlType.heights_le.mp hbelow
  have hparts : ∀ pair ∈ types.zip parts,
      NeedsAll (readWith classes limit below) pair.2 pair.1 cutShort :=
    fun pair hpair => heach pair hpair below (hlower pair.1 (List.of_mem_zip hpair).1)
  exact needsAll_counted hcount hwidth hparts CqlType.tuple

theorem needsAll_udt {keyspace name : String} {fields : List (String × CqlType)}
    {parts : List Bytes} (howner : IsShort keyspace) (hshort : IsShort name)
    (hcount : fields.length ≤ Wire.maxUInt16) (hwidth : fields.length = parts.length)
    (hnames : ∀ field ∈ fields, IsShort field.1) {room : Nat}
    (hroom : (CqlType.udt keyspace name fields).height < room)
    (heach : ∀ pair ∈ fields.zip parts, ∀ below, pair.1.2.height < below →
      NeedsAll (readWith classes limit below) pair.2 pair.1.2 cutShort) :
    NeedsAll (readWith classes limit room)
      (writeCode .udt ++ writeFields keyspace name fields parts) (.udt keyspace name fields)
      cutShort := by
  refine needsAll_level hroom fun below hbelow => ?_
  have hlower := CqlType.fieldHeights_le.mp hbelow
  have hparts : ∀ pair ∈ fields.zip (List.zipWith writeField fields parts),
      NeedsAll (readField (readWith classes limit below)) pair.2 pair.1 cutShort := by
    intro pair hpair
    obtain ⟨part, hfield, hpart⟩ := exists_of_mem_fields hpair
    have hmem := (List.of_mem_zip hfield).1
    rw [hpart]
    exact needsAll_readField (hnames _ hmem) (heach _ hfield below (hlower _ hmem))
  have hfields := needsAll_counted hcount (length_zipWith_writeField hwidth) hparts
    (CqlType.udt keyspace name)
  exact (needsAll_name howner).bind ((needsAll_name hshort).bind hfields)

/-- A type that is not nested too deep is read from what is written for it, and from nothing
less. -/
theorem needsAll_readWith {type : CqlType} {front : Bytes} (h : type.Written front) {room : Nat}
    (hroom : type.height < room) :
    NeedsAll (readWith classes limit room) front type cutShort := by
  induction h generalizing room with
  | native type => exact needsAll_native type hroom
  | varchar =>
    rw [← List.append_nil (writeCode _)]
    exact needsAll_level hroom fun below _ => needsAll_pure _ _
  | list _ ih => exact needsAll_level hroom fun below hbelow => (ih hbelow).map CqlType.list
  | set _ ih => exact needsAll_level hroom fun below hbelow => (ih hbelow).map CqlType.set
  | map _ _ ihk ihv =>
    refine needsAll_level hroom fun below hbelow => ?_
    rw [CqlType.height] at hbelow
    exact (ihk (by omega)).bind ((ihv (by omega)).map _)
  | tuple hcount hwidth _ ih =>
    exact needsAll_tuple hcount hwidth hroom fun pair hpair _ hlower => ih pair hpair hlower
  | udt howner hshort hcount hwidth hnames _ ih =>
    exact needsAll_udt howner hshort hcount hwidth hnames hroom
      fun pair hpair _ hlower => ih pair hpair hlower

/-! ## Types that are nested too deep -/

theorem exists_mem_zip {α β : Type} {as : List α} {bs : List β} (hlen : as.length = bs.length)
    {a : α} (h : a ∈ as) : ∃ b, (a, b) ∈ as.zip bs := by
  rw [← List.map_fst_zip (Nat.le_of_eq hlen), List.mem_map] at h
  obtain ⟨pair, hpair, rfl⟩ := h
  exact ⟨pair.2, hpair⟩

/-- A type that is nested too deep is refused where the first level is reached that may not be
opened. -/
theorem failsOn_readWith {type : CqlType} {front : Bytes} (h : type.Written front) {room : Nat}
    (hroom : room ≤ type.height) :
    FailsOn (readWith classes limit room) front (.depthExceeded limit) := by
  induction h generalizing room with
  | native type =>
    rw [← List.append_nil (writeCode _)]
    exact failsOn_level hroom fun below hbelow => absurd hbelow (Nat.not_lt_zero below)
  | varchar =>
    rw [← List.append_nil (writeCode _)]
    exact failsOn_level hroom fun below hbelow => absurd hbelow (Nat.not_lt_zero below)
  | list _ ih =>
    exact failsOn_level hroom fun below hbelow => (ih (Nat.le_of_lt_succ hbelow)).map CqlType.list
  | set _ ih =>
    exact failsOn_level hroom fun below hbelow => (ih (Nat.le_of_lt_succ hbelow)).map CqlType.set
  | @map key value front back hkeys hvalues ihk ihv =>
    refine failsOn_level hroom fun below hbelow => ?_
    rw [CqlType.height] at hbelow
    by_cases hk : below ≤ key.height
    · exact (ihk hk).bind _ back
    · refine (needsAll_readWith hkeys (Nat.lt_of_not_le hk)).reads.failsOn ?_
      exact (ihv (by omega)).map _
  | @tuple types parts hcount hwidth' hwritten ih =>
    refine failsOn_level hroom fun below hbelow => ?_
    obtain ⟨deep, hmem, hdeep⟩ := CqlType.exists_of_lt_heights hbelow
    have hparts : ∀ pair ∈ types.zip parts,
        Reads (readWith classes limit below) pair.2 pair.1 ∨
          FailsOn (readWith classes limit below) pair.2 (.depthExceeded limit) := by
      intro pair hpair
      by_cases hheight : below ≤ pair.1.height
      · exact .inr (ih pair hpair hheight)
      · exact .inl (needsAll_readWith (hwritten pair hpair) (Nat.lt_of_not_le hheight)).reads
    obtain ⟨part, hpart⟩ := exists_mem_zip hwidth' hmem
    exact failsOn_counted hcount hwidth' hparts ⟨_, hpart, ih _ hpart hdeep⟩ CqlType.tuple
  | @udt keyspace name fields parts howner hshort hcount hwidth' hnames hwritten ih =>
    refine failsOn_level hroom fun below hbelow => ?_
    obtain ⟨deep, hmem, hdeep⟩ := CqlType.exists_of_lt_fieldHeights hbelow
    have hwidth := length_zipWith_writeField hwidth'
    have hparts : ∀ pair ∈ fields.zip (List.zipWith writeField fields parts),
        Reads (readField (readWith classes limit below)) pair.2 pair.1 ∨
          FailsOn (readField (readWith classes limit below)) pair.2 (.depthExceeded limit) := by
      intro pair hpair
      obtain ⟨part, hfield, hpart⟩ := exists_of_mem_fields hpair
      have hname := hnames _ (List.of_mem_zip hfield).1
      rw [hpart]
      by_cases hheight : below ≤ pair.1.2.height
      · exact .inr (failsOn_readField hname (ih _ hfield hheight))
      · have hlower := Nat.lt_of_not_le hheight
        exact .inl (needsAll_readField hname (needsAll_readWith (hwritten _ hfield) hlower)).reads
    have hdeepest : ∃ pair ∈ fields.zip (List.zipWith writeField fields parts),
        FailsOn (readField (readWith classes limit below)) pair.2 (.depthExceeded limit) := by
      obtain ⟨front, hpair⟩ := exists_mem_zip hwidth hmem
      obtain ⟨part, hfield, hpart⟩ := exists_of_mem_fields hpair
      refine ⟨_, hpair, ?_⟩
      rw [hpart]
      exact failsOn_readField (hnames _ hmem) (ih _ hfield hdeep)
    have hfields := failsOn_counted hcount hwidth hparts hdeepest (CqlType.udt keyspace name)
    exact (needsAll_name howner).reads.failsOn ((needsAll_name hshort).reads.failsOn hfields)

/-! ## What is read as a type -/

/-- Reading where no name of a class is accepted. -/
def noClass (_ : Nat) : TypeReader CqlType := throw (.invalidClass "")

theorem code_of_ofWire? {n : UInt16} {code : TypeCode} (h : TypeCode.ofWire? n = some code) :
    n = code.wireCode := by
  have hcode := List.find?_some h
  exact (beq_iff_eq.mp hcode).symm

theorem accepts_readField {nested : TypeReader CqlType} {P : Bytes → CqlType → Prop}
    (h : Accepts nested P) :
    Accepts (readField nested) fun front field => IsShort field.1 ∧ ∃ part,
      front = writeField field part ∧ P part field.2 := by
  refine (accepts_string.mapError _).bind ?_
  rintro _ name ⟨rfl, hname⟩
  exact h.map fun part type hpart => ⟨hname, part, rfl, hpart⟩

/-- What fields are read from is made of what their types are read from. -/
theorem exists_fieldParts (P : Bytes → CqlType → Prop) {fields : List (String × CqlType)}
    {fronts : List Bytes} (hlen : fields.length = fronts.length)
    (h : ∀ pair ∈ fields.zip fronts, ∃ part, pair.2 = writeField pair.1 part ∧ P part pair.1.2) :
    ∃ parts : List Bytes, fronts = List.zipWith writeField fields parts ∧
      fields.length = parts.length ∧ ∀ pair ∈ fields.zip parts, P pair.2 pair.1.2 := by
  induction fields generalizing fronts with
  | nil =>
    obtain rfl : fronts = [] := by simpa using hlen.symm
    exact ⟨[], rfl, rfl, by simp⟩
  | cons field fields ih =>
    cases fronts with
    | nil => cases hlen
    | cons front fronts =>
      rw [List.zip_cons_cons, List.forall_mem_cons] at h
      obtain ⟨⟨part, hfront, hpart⟩, hrest⟩ := h
      obtain ⟨parts, rfl, hwidth, heach⟩ := ih (Nat.succ.inj hlen) hrest
      refine ⟨part :: parts, congrArg (· :: _) hfront, congrArg Nat.succ hwidth, ?_⟩
      rw [List.zip_cons_cons, List.forall_mem_cons]
      exact ⟨hpart, heach⟩

/-- Unless a class is met, a type is read from nothing but what is written for it. -/
theorem accepts_readWith (limit room : Nat) :
    Accepts (readWith noClass limit room) fun front type =>
      type.Written front ∧ type.height < room := by
  induction room with
  | zero => exact accepts_throw _
  | succ room ih =>
    refine (accepts_uint16.mapError _).bind ?_
    rintro _ n rfl
    rw [readBody]
    cases hcode : TypeCode.ofWire? n with
    | none => exact accepts_throw _
    | some code =>
      obtain rfl := code_of_ofWire? hcode
      cases code with
      | custom => exact accepts_throw _
      | native type =>
        refine accepts_pure ?_
        rw [List.append_nil]
        exact ⟨.native type, Nat.succ_pos room⟩
      | varchar =>
        refine accepts_pure ?_
        rw [List.append_nil]
        exact ⟨.varchar, Nat.succ_pos room⟩
      | list => exact ih.map fun _ _ ⟨hw, hh⟩ => ⟨.list hw, Nat.succ_lt_succ hh⟩
      | set => exact ih.map fun _ _ ⟨hw, hh⟩ => ⟨.set hw, Nat.succ_lt_succ hh⟩
      | map =>
        refine ih.bind fun front key ⟨hkey, hk⟩ => ih.map fun back value ⟨hvalue, hv⟩ => ?_
        exact ⟨.map hkey hvalue, Nat.succ_lt_succ (Nat.max_lt.mpr ⟨hk, hv⟩)⟩
      | tuple =>
        refine accepts_counted ih fun types parts hcount hwidth heach => ?_
        refine ⟨.tuple hcount hwidth fun pair hpair => (heach pair hpair).1, ?_⟩
        refine Nat.lt_succ_of_le (CqlType.heights_le.mpr fun type htype => ?_)
        obtain ⟨part, hpair⟩ := exists_mem_zip hwidth htype
        exact (heach _ hpair).2
      | udt =>
        refine (accepts_string.mapError _).bind ?_
        rintro _ keyspace ⟨rfl, howner⟩
        refine (accepts_string.mapError _).bind ?_
        rintro _ name ⟨rfl, hshort⟩
        refine accepts_counted (accepts_readField ih) fun fields fronts hcount hlen heach => ?_
        have hnames : ∀ field ∈ fields, IsShort field.1 := by
          intro field hfield
          obtain ⟨front, hpair⟩ := exists_mem_zip hlen hfield
          exact (heach _ hpair).1
        obtain ⟨parts, rfl, hwidth, hparts⟩ := exists_fieldParts
          (fun part type => type.Written part ∧ type.height < room) hlen
          fun pair hpair => (heach pair hpair).2
        refine ⟨.udt howner hshort hcount hwidth hnames fun pair hpair => (hparts pair hpair).1, ?_⟩
        refine Nat.lt_succ_of_le (CqlType.fieldHeights_le.mpr fun field hfield => ?_)
        obtain ⟨part, hpair⟩ := exists_mem_zip hwidth hfield
        exact (hparts _ hpair).2
      | vector => exact accepts_throw _

/-- The type is read however names of classes would be read, so that none of them is met. -/
def ReadsClassless (limit : Nat) (bytes : Bytes) (type : CqlType) (rest : Bytes) : Prop :=
  ∀ classes, readWith classes limit (limit + 1) bytes = .ok type rest

theorem readsClassless_iff {limit : Nat} {bytes rest : Bytes} {type : CqlType} :
    ReadsClassless limit bytes type rest ↔
      ∃ front, bytes = front ++ rest ∧ type.Written front ∧ type.height ≤ limit := by
  constructor
  · intro h
    have hread := h noClass
    obtain ⟨front, hfront, hwritten, hheight⟩ := accepts_readWith limit (limit + 1) _ _ _ hread
    exact ⟨front, hfront, hwritten, Nat.le_of_lt_succ hheight⟩
  · rintro ⟨front, rfl, hwritten, hheight⟩ classes
    exact (needsAll_readWith hwritten (Nat.lt_succ_of_le hheight)).reads rest

/-- A type is read from what is written for it, whatever follows, if it is not nested deeper than
the limit, and is then refused as truncated if any of it is missing; a type that is nested deeper is
refused for that. Where no class is met, nothing else is read as a type, but for the older code of
texts. -/
theorem read_wire (limit : Nat) :
    (∀ type : CqlType, type.Writable →
      (type.height ≤ limit →
        (∀ rest, read limit (type.wire ++ rest) = .ok type rest) ∧
        ∀ part : Bytes, part <+: type.wire → part ≠ type.wire →
          ∃ left, read limit part = .error (.truncated .endOfInput) left) ∧
      (limit < type.height →
        ∀ rest, ∃ left, read limit (type.wire ++ rest) = .error (.depthExceeded limit) left)) ∧
    ∀ bytes type rest, ReadsClassless limit bytes type rest →
      read limit bytes = .ok type rest ∧
      ∃ front, bytes = front ++ rest ∧ type.Written front ∧ type.height ≤ limit := by
  refine ⟨fun type hwritable => ⟨fun hheight => ?shallow, fun hheight => ?deep⟩,
    fun bytes type rest h => ⟨h (readClass limit), readsClassless_iff.mp h⟩⟩
  case shallow =>
    have hread : NeedsAll (read limit) type.wire type cutShort :=
      needsAll_readWith hwritable.written (Nat.lt_succ_of_le hheight)
    exact ⟨hread.reads, hread.cut⟩
  case deep => exact failsOn_readWith hwritable.written hheight

/-- A tuple of a text and of a set opens two levels; its text may carry the older code. -/
theorem read_wire_tuple :
    let type := CqlType.tuple [.native .text, .set (.native .int)]
    read 2 [0, 0x31, 0, 2, 0, 0x0D, 0, 0x22, 0, 9, 42] = .ok type [42] ∧
    (∃ left, read 2 [0, 0x31, 0, 2, 0, 0x0D, 0, 0x22, 0] =
      .error (.truncated .endOfInput) left) ∧
    (∃ left, read 1 [0, 0x31, 0, 2, 0, 0x0D, 0, 0x22, 0, 9] = .error (.depthExceeded 1) left) ∧
    type.Written [0, 0x31, 0, 2, 0, 0x0A, 0, 0x22, 0, 9] := by
  intro type
  have hwritable : type.Writable := by
    refine .tuple (by decide) ?_
    simp only [List.forall_mem_cons]
    exact ⟨.native .text, .set (.native .int), by simp⟩
  obtain ⟨hshallow, -⟩ := (read_wire 2).1 type hwritable
  obtain ⟨-, hdeep⟩ := (read_wire 1).1 type hwritable
  obtain ⟨hwhole, hcut⟩ := hshallow (by decide)
  obtain ⟨front, hfront, hwritten, -⟩ := ((read_wire 2).2
    [0, 0x31, 0, 2, 0, 0x0A, 0, 0x22, 0, 9] type [] fun classes => rfl).2
  rw [List.append_nil] at hfront
  exact ⟨hwhole [42], hcut _ ⟨[9], rfl⟩ (by decide), hdeep (by decide) [], hfront ▸ hwritten⟩

end Descriptor

end CqlClient
