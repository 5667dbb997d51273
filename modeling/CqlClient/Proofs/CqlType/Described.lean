import CqlClient.Proofs.CqlType.Descriptor
import CqlClient.Proofs.CqlType.Spelling

/-!
# Types as column metadata describes them

Vectors have no code of their own: they are described by the name of a class, and other types by
their codes. `CqlType.described` puts these names in, so that `described.wire` is what a server
writes; `needsAll_described` says that the type is read from that, and from nothing less.
-/

namespace CqlClient

namespace ClassName

/-- The name of the class of a type that is built of native types, lists, sets, maps and vectors. -/
def canonical : CqlType → List Char
  | .native type => qualify true (nativeClass type).toList
  | .custom className => className.toList
  | .list element => qualify true (applied "ListType" (canonical element))
  | .set element => qualify true (applied "SetType" (canonical element))
  | .map key value => qualify true (applied "MapType" (canonical key ++ ',' :: canonical value))
  | .tuple _ | .udt .. => []
  | .vector element dimensions => qualify true (applied "VectorType"
      (canonical element ++ ',' :: ([' '] ++ (numeral false 0 dimensions.toNat ++ []))))

/-- The type is built of native types, lists, sets, maps and vectors. -/
inductive HasClass : CqlType → Prop
  | native (type : Native) : HasClass (.native type)
  | list {element : CqlType} (part : HasClass element) : HasClass (.list element)
  | set {element : CqlType} (part : HasClass element) : HasClass (.set element)
  | map {key value : CqlType} (keys : HasClass key) (values : HasClass value) :
    HasClass (.map key value)
  | vector {element : CqlType} (part : HasClass element) (dimensions : UInt16) :
    HasClass (.vector element dimensions)

/-- The name of a class spells the type with as many levels as the type has. -/
theorem spelled_canonical {type : CqlType} (h : HasClass type) :
    Spelled type type.height (canonical type) := by
  induction h with
  | native type => exact .native true (.current type)
  | list _ ih => exact .list true ih
  | set _ ih => exact .set true ih
  | map _ _ ihk ihv => exact .map true ihk ihv
  | vector _ dimensions ih => exact .vector true ih dimensions false 0 (by decide) (by decide)

end ClassName

namespace CqlType

open Descriptor (IsShort)

mutual

/-- The type with the name of its class in place of every vector. -/
def described : CqlType → CqlType
  | native type => native type
  | custom className => custom className
  | list element => list element.described
  | set element => set element.described
  | map key value => map key.described value.described
  | tuple elements => tuple (allDescribed elements)
  | udt keyspace name fields => udt keyspace name (fieldsDescribed fields)
  | vector element dimensions =>
    custom (String.ofList (ClassName.canonical (vector element dimensions)))

def allDescribed : List CqlType → List CqlType
  | [] => []
  | type :: types => type.described :: allDescribed types

def fieldsDescribed : List (String × CqlType) → List (String × CqlType)
  | [] => []
  | (name, type) :: fields => (name, type.described) :: fieldsDescribed fields

end

theorem allDescribed_eq (types : List CqlType) : allDescribed types = types.map described := by
  induction types with
  | nil => rfl
  | cons type types ih => rw [allDescribed, ih, List.map_cons]

theorem fieldsDescribed_eq (fields : List (String × CqlType)) :
    fieldsDescribed fields = fields.map fun field => (field.1, field.2.described) := by
  induction fields with
  | nil => rfl
  | cons field fields ih => rw [fieldsDescribed, ih, List.map_cons]

/-- The types without custom classes whose names and counts fit 16 bits. The elements of a vector
are described by their own classes, which leaves out tuples and user types. -/
inductive Describable : CqlType → Prop
  | native (type : Native) : Describable (.native type)
  | list {element : CqlType} (part : Describable element) : Describable (.list element)
  | set {element : CqlType} (part : Describable element) : Describable (.set element)
  | map {key value : CqlType} (keys : Describable key) (values : Describable value) :
    Describable (.map key value)
  | tuple {types : List CqlType} (count : types.length ≤ Wire.maxUInt16)
    (each : ∀ type ∈ types, Describable type) : Describable (.tuple types)
  | udt {keyspace name : String} {fields : List (String × CqlType)} (owner : IsShort keyspace)
    (short : IsShort name) (count : fields.length ≤ Wire.maxUInt16)
    (names : ∀ field ∈ fields, IsShort field.1) (each : ∀ field ∈ fields, Describable field.2) :
    Describable (.udt keyspace name fields)
  | vector {element : CqlType} (part : ClassName.HasClass element) (dimensions : UInt16)
    (short : IsShort (String.ofList (ClassName.canonical (.vector element dimensions)))) :
    Describable (.vector element dimensions)

/-- Without vectors there is nothing to be described by its class. -/
theorem Writable.describable {type : CqlType} (h : type.Writable) : type.Describable := by
  induction h with
  | native type => exact .native type
  | list _ ih => exact .list ih
  | set _ ih => exact .set ih
  | map _ _ ihk ihv => exact .map ihk ihv
  | tuple hcount _ ih => exact .tuple hcount ih
  | udt howner hshort hcount hnames _ ih => exact .udt howner hshort hcount hnames ih

theorem Writable.described_eq {type : CqlType} (h : type.Writable) : type.described = type := by
  induction h with
  | native type => rfl
  | list _ ih => rw [described, ih]
  | set _ ih => rw [described, ih]
  | map _ _ ihk ihv => rw [described, ihk, ihv]
  | @tuple types _ _ ih =>
    rw [described, allDescribed_eq, List.map_congr_left ih, List.map_id' types]
  | @udt _ _ fields _ _ _ _ _ ih =>
    have hfields : ∀ field ∈ fields, (field.1, field.2.described) = field := fun field hmem =>
      congrArg (Prod.mk field.1) (ih field hmem)
    rw [described, fieldsDescribed_eq, List.map_congr_left hfields, List.map_id' fields]

end CqlType

namespace Descriptor

/-- A vector is read from the name of its class. -/
theorem needsAll_class {type : CqlType} (h : ClassName.HasClass type)
    (hshort : IsShort (String.ofList (ClassName.canonical type))) {limit room : Nat}
    (hroom : type.height < room) :
    NeedsAll (readWith (readClass limit) limit room)
      (CqlType.custom (String.ofList (ClassName.canonical type))).wire type cutShort := by
  refine needsAll_level hroom fun below hbelow => (needsAll_name hshort).bind_nil ?_
  have hspelled := ClassName.spelled_canonical h
  rw [String.toList_ofList, ClassName.parseWithin_spelled hspelled limit _ rfl, ClassName.outcome,
    if_pos (Nat.lt_succ_of_le hbelow)]
  exact needsAll_pure type cutShort

/-- A type that is not nested too deep is read from its description, and from nothing less. -/
theorem needsAll_described {type : CqlType} (h : type.Describable) {limit room : Nat}
    (hroom : type.height < room) :
    NeedsAll (readWith (readClass limit) limit room) type.described.wire type cutShort := by
  induction h generalizing room with
  | native type => exact needsAll_native type hroom
  | list _ ih => exact needsAll_level hroom fun below hbelow => (ih hbelow).map CqlType.list
  | set _ ih => exact needsAll_level hroom fun below hbelow => (ih hbelow).map CqlType.set
  | map _ _ ihk ihv =>
    refine needsAll_level hroom fun below hbelow => ?_
    rw [CqlType.height] at hbelow
    exact (ihk (by omega)).bind ((ihv (by omega)).map _)
  | tuple hcount _ ih =>
    rw [CqlType.described, CqlType.wire, wires_eq, CqlType.allDescribed_eq, List.map_map]
    refine needsAll_tuple hcount (by simp) hroom fun pair hpair _ hlower => ?_
    obtain ⟨hmem, hpart⟩ := mem_zip_map hpair
    rw [hpart]
    exact ih pair.1 hmem hlower
  | @udt keyspace name fields howner hshort hcount hnames _ ih =>
    -- Describing the types of fields leaves their names as they are.
    have hfields : writeFields keyspace name (CqlType.fieldsDescribed fields)
        (CqlType.fieldWires (CqlType.fieldsDescribed fields)) =
          writeFields keyspace name fields (fields.map fun field => field.2.described.wire) := by
      rw [writeFields, writeFields, fieldWires_eq, CqlType.fieldsDescribed_eq, List.map_map,
        List.zipWith_map_left]
      rfl
    rw [CqlType.described, CqlType.wire, hfields]
    refine needsAll_udt howner hshort hcount (by simp) hnames hroom fun pair hpair _ hlower => ?_
    obtain ⟨hmem, hpart⟩ := mem_zip_map hpair
    rw [hpart]
    exact ih pair.1 hmem hlower
  | vector hpart dimensions hshort =>
    exact needsAll_class (.vector hpart dimensions) hshort hroom

theorem read_of_describable {type : CqlType} (h : type.Describable) {limit : Nat}
    (hheight : type.height ≤ limit) : read limit type.described.wire = .ok type [] := by
  have hread : NeedsAll (read limit) type.described.wire type cutShort :=
    needsAll_described h (Nat.lt_succ_of_le hheight)
  have hall := hread.reads []
  rwa [List.append_nil] at hall

end Descriptor

end CqlClient
