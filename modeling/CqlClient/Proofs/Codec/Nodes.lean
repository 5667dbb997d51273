import CqlClient.Proofs.Codec.Stable
import CqlClient.Proofs.CqlType.Bounds
import CqlClient.Proofs.CqlType.Described
import CqlClient.Proofs.Vint.Size

/-!
# Values are bounded by what they are read from

Whoever writes a value chooses its counts, and whoever describes its type chooses how many elements
a vector has. The bytes pay for what is made of them all the same: elements and entries take the
bytes of their lengths, and a field that is missing is a node of the type. Only the elements of a
vector may take no bytes at all, and then there are as many of them as the type says.

* `decoded_of_decode`: which codec has made a value, and what its parts were read by;
* `Affords`: a decoder makes so many nodes for a byte, and as many for no bytes;
* `CqlType.affords_decode`: it makes no more than the weight of the type;
* `nodes_of_decode`: which is its number of nodes, if elements without bytes stand alone;
* `decode_emptyElements`: and more than that, if they do not.
-/

namespace CqlClient

open Codec Scalar

/-! ## Nodes -/

namespace Value

mutual

/-- How many values a value is made of, itself included. A field that is null counts as one. -/
def nodes : Value → Nat
  | list elements | set elements | vector elements => allNodes elements + 1
  | map entries => entryNodes entries + 1
  | tuple fields => tupleNodes fields + 1
  | udt _ _ fields => fieldNodes fields + 1
  | _ => 1

def allNodes : List Value → Nat
  | [] => 0
  | v :: vs => v.nodes + allNodes vs

def entryNodes : List (Value × Value) → Nat
  | [] => 0
  | (k, v) :: entries => k.nodes + v.nodes + entryNodes entries

def optionNodes : Option Value → Nat
  | none => 1
  | some v => v.nodes

def tupleNodes : List (Option Value) → Nat
  | [] => 0
  | field :: fields => optionNodes field + tupleNodes fields

def fieldNodes : List (String × Option Value) → Nat
  | [] => 0
  | (_, field) :: fields => optionNodes field + fieldNodes fields

end

theorem allNodes_eq (vs : List Value) : allNodes vs = (vs.map nodes).sum := by
  induction vs with
  | nil => rfl
  | cons v vs ih => rw [allNodes, ih, List.map_cons, List.sum_cons]

theorem entryNodes_eq (entries : List (Value × Value)) :
    entryNodes entries = (entries.map fun entry => entry.1.nodes + entry.2.nodes).sum := by
  induction entries with
  | nil => rfl
  | cons entry entries ih => rw [entryNodes, ih, List.map_cons, List.sum_cons]

theorem tupleNodes_eq (fields : List (Option Value)) :
    tupleNodes fields = (fields.map optionNodes).sum := by
  induction fields with
  | nil => rfl
  | cons field fields ih => rw [tupleNodes, ih, List.map_cons, List.sum_cons]

theorem fieldNodes_eq (fields : List (String × Option Value)) :
    fieldNodes fields = (fields.map fun field => optionNodes field.2).sum := by
  induction fields with
  | nil => rfl
  | cons field fields ih => rw [fieldNodes, ih, List.map_cons, List.sum_cons]

theorem nodes_of_native {v : Value} {type : Native} (h : v.code = .native type) : v.nodes = 1 := by
  cases v <;> first | rfl | cases h

end Value

namespace CqlType

/-- How many elements of a vector may share one byte, or take none. -/
def repeats (element : CqlType) (dimensions : UInt16) : Nat :=
  if element.exactSize = some 0 then max dimensions.toNat 1 else 1

mutual

/-- As `nodes`, but counting every element of a vector whose elements have no bytes. -/
def weight : CqlType → Nat
  | native _ | custom _ => 1
  | list element | set element => element.weight + 1
  | map key value => key.weight + value.weight + 1
  | tuple elements => allWeights elements + 1
  | udt _ _ fields => fieldWeights fields + 1
  | vector element dimensions => repeats element dimensions * element.weight + 1

def allWeights : List CqlType → Nat
  | [] => 0
  | type :: types => type.weight + allWeights types

def fieldWeights : List (String × CqlType) → Nat
  | [] => 0
  | (_, type) :: fields => type.weight + fieldWeights fields

end

theorem allWeights_eq (types : List CqlType) : allWeights types = (types.map weight).sum := by
  induction types with
  | nil => rfl
  | cons type types ih => rw [allWeights, ih, List.map_cons, List.sum_cons]

theorem fieldWeights_eq (fields : List (String × CqlType)) :
    fieldWeights fields = (fields.map fun field => field.2.weight).sum := by
  induction fields with
  | nil => rfl
  | cons field fields ih => rw [fieldWeights, ih, List.map_cons, List.sum_cons]

theorem weight_pos (type : CqlType) : 0 < type.weight := by
  cases type <;> exact Nat.succ_pos _

theorem repeats_pos (element : CqlType) (dimensions : UInt16) : 0 < repeats element dimensions := by
  rw [repeats]
  split
  · exact lt_max_of_lt_right Nat.zero_lt_one
  · exact Nat.zero_lt_one

variable {type element part : CqlType}

theorem weight_lt_of_element (h : type.element? = some element) :
    element.weight + 1 ≤ type.weight := by
  cases type with
  | list _ | set _ =>
    cases h
    exact Nat.le_refl _
  | vector _ dimensions =>
    cases h
    exact Nat.succ_le_succ (Nat.le_mul_of_pos_left _ (repeats_pos element dimensions))
  | _ => cases h

theorem mem_children_of_element (h : type.element? = some element) : element ∈ type.children := by
  cases type with
  | list _ | set _ | vector _ _ =>
    cases h
    exact List.mem_singleton_self element
  | _ => cases h

/-- No vector within the type has more than one element if elements have no bytes. -/
def SizedElements (type : CqlType) : Prop :=
  ∀ element dimensions, Occurs (.vector element dimensions) type →
    dimensions.toNat ≤ 1 ∨ element.exactSize ≠ some 0

theorem SizedElements.child (h : type.SizedElements) (hpart : part ∈ type.children) :
    part.SizedElements :=
  fun element dimensions hdeep => h element dimensions (.inside hpart hdeep)

theorem repeats_eq_one {dimensions : UInt16}
    (h : dimensions.toNat ≤ 1 ∨ element.exactSize ≠ some 0) : repeats element dimensions = 1 := by
  rw [repeats]
  split
  · rename_i hempty
    exact Nat.max_eq_right (h.resolve_right fun hsome => hsome hempty)
  · rfl

theorem weight_eq_nodes (h : type.SizedElements) : type.weight = type.nodes := by
  induction type using CqlType.inductionOn with
  | native _ | custom _ => rfl
  | list element ih | set element ih =>
    rw [weight, nodes, ih (h.child (List.mem_singleton_self _))]
  | map key value ihk ihv =>
    rw [weight, nodes, ihk (h.child (by simp [children])), ihv (h.child (by simp [children]))]
  | tuple types ih =>
    have heach : ∀ type ∈ types, type.weight = type.nodes := fun type htype =>
      ih type htype (h.child htype)
    rw [weight, nodes, allWeights_eq, allNodes_eq, List.map_congr_left heach]
  | udt keyspace name fields ih =>
    have heach : ∀ field ∈ fields, field.2.weight = field.2.nodes := fun field hfield =>
      ih field hfield (h.child (List.mem_map_of_mem hfield))
    rw [weight, nodes, fieldWeights_eq, fieldNodes_eq, List.map_congr_left heach]
  | vector element dimensions ih =>
    rw [weight, nodes, ih (h.child (List.mem_singleton_self _)),
      repeats_eq_one (h element dimensions .here), Nat.one_mul]

end CqlType

/-! ## What a value is read by -/

/-- The coding that has made a value of the bytes of a type, and what its parts were read by. -/
inductive Decoded (r : Registry) : CqlType → Bytes → Value → Prop
  | scalar {type : CqlType} {scalar : Native} {bytes : Bytes} {v : Value}
    (read : Scalar.decode scalar bytes = .ok v) : Decoded r type bytes v
  | list {type element : CqlType} {bytes : Bytes} {vs : List Value}
    (part : type.element? = some element)
    (read : (elements (r.decode element)).outcome bytes = .ok vs) : Decoded r type bytes (.list vs)
  | set {type element : CqlType} {bytes : Bytes} {vs : List Value}
    (part : type.element? = some element)
    (read : (elements (r.decode element)).outcome bytes = .ok vs) : Decoded r type bytes (.set vs)
  | map {key value : CqlType} {bytes : Bytes} {pairs : List (Value × Value)}
    (read : (entries (r.decode key) (r.decode value)).outcome bytes = .ok pairs) :
    Decoded r (.map key value) bytes (.map pairs)
  | tuple {types : List CqlType} {bytes : Bytes} {fields : List (Option Value)}
    (read : (decodeTuple r types []).outcome bytes = .ok fields) :
    Decoded r (.tuple types) bytes (.tuple fields)
  | udt {keyspace name : String} {types : List (String × CqlType)} {bytes : Bytes}
    {fields : List (String × Option Value)}
    (read : (decodeFields r types []).outcome bytes = .ok fields) :
    Decoded r (.udt keyspace name types) bytes (.udt keyspace name fields)
  | vector {element : CqlType} {dimensions : UInt16} {bytes : Bytes} {vs : List Value}
    (read : (components dimensions.toNat element.exactSize (r.decode element)).outcome bytes =
      .ok vs) : Decoded r (.vector element dimensions) bytes (.vector vs)

theorem decoded_of_decodeWith {r : Registry} {type : CqlType} {coding : Coding}
    {bytes : Bytes} {v : Value} (h : decodeWith r type coding bytes = .ok v) :
    Decoded r type bytes v := by
  cases coding with
  | native scalar =>
    cases type <;> exact .scalar h
  | list =>
    cases type with
    | list element | set element | vector element _ =>
      obtain ⟨vs, hvs, h⟩ := bind_eq_ok.mp h
      cases h
      exact .list rfl hvs
    | _ => cases h
  | set =>
    cases type with
    | list element | set element | vector element _ =>
      obtain ⟨vs, hvs, h⟩ := bind_eq_ok.mp h
      cases h
      exact .set rfl hvs
    | _ => cases h
  | map =>
    cases type with
    | map key value =>
      obtain ⟨pairs, hpairs, h⟩ := bind_eq_ok.mp h
      cases h
      exact .map hpairs
    | _ => cases h
  | tuple =>
    cases type with
    | tuple types =>
      obtain ⟨fields, hfields, h⟩ := bind_eq_ok.mp h
      cases h
      exact .tuple hfields
    | _ => cases h
  | udt =>
    cases type with
    | udt keyspace name types =>
      obtain ⟨fields, hfields, h⟩ := bind_eq_ok.mp h
      cases h
      exact .udt hfields
    | _ => cases h
  | vector =>
    cases type with
    | vector element dimensions =>
      obtain ⟨size, hsize, h⟩ := bind_eq_ok.mp h
      obtain rfl := CqlType.exactSize_of_fixedSize (mapError_eq_ok.mp hsize)
      obtain ⟨vs, hvs, h⟩ := bind_eq_ok.mp h
      cases h
      exact .vector hvs
    | _ => cases h

theorem decoded_of_decode {r : Registry} {type : CqlType} {bytes : Bytes} {v : Value}
    (h : r.decode type bytes = .ok v) : Decoded r type bytes v := by
  rw [Registry.decode, Registry.dispatch] at h
  cases hcoding : r.decoder type.code (some type) with
  | error fault =>
    rw [hcoding] at h
    cases h
  | ok coding =>
    rw [hcoding] at h
    exact decoded_of_decodeWith h

/-! ## What bytes pay for -/

/-- The decoder makes no more than so many nodes for each byte, and no more than that for none. -/
def Affords (decode : PartDecoder) (factor : Nat) : Prop :=
  ∀ bytes v, decode bytes = .ok v → v.nodes ≤ max bytes.length 1 * factor

section Parts

variable {decode decodeKey decodeValue : PartDecoder} {factor : Nat} {bytes : Bytes} {v : Value}

/-- A part that has a byte of its own, be it of its length, pays for what is made of it. -/
theorem Affords.framed (h : Affords decode factor) {front part : Bytes}
    (hv : decode part = .ok v) (hpos : 0 < front.length) (hlen : part.length ≤ front.length) :
    v.nodes ≤ front.length * factor :=
  (h part v hv).trans (Nat.mul_le_mul_right factor (Nat.max_le.mpr ⟨hlen, hpos⟩))

theorem length_writeBytes (bytes : Bytes) : (Wire.writeBytes bytes).length = 4 + bytes.length := by
  rw [Wire.writeBytes, List.length_append, Bytes.length_ofNat]

theorem Affords.sized (h : Affords decode factor) (hv : decode bytes = .ok v) :
    v.nodes ≤ (Wire.writeBytes bytes).length * factor := by
  have hlen := length_writeBytes bytes
  exact h.framed hv (by omega) (by omega)

theorem Affords.element (h : Affords decode factor) :
    Accepts (readElement decode) fun front v => v.nodes ≤ front.length * factor := by
  intro input v rest hread
  obtain ⟨_, hsplit, part, rfl, -, hv⟩ := accepts_readElement _ _ _ hread
  exact ⟨_, hsplit, h.sized hv⟩

/-- A length takes a byte, and so does an element of a size that is not zero. -/
theorem Affords.component (h : Affords decode factor) {size : Option Nat}
    (hsize : size ≠ some 0) :
    Accepts (readComponent size decode) fun front v => v.nodes ≤ front.length * factor := by
  cases size with
  | some size =>
    intro input v rest hread
    obtain ⟨front, hsplit, hlen, hv⟩ := accepts_readBare size _ _ _ hread
    have hpos : size ≠ 0 := fun hzero => hsize (congrArg some hzero)
    exact ⟨front, hsplit, h.framed hv (by omega) (Nat.le_refl _)⟩
  | none =>
    have hread : readComponent none decode =
        wire Vint.readUnsigned >>= fun n => readComponent (some n.toNat) decode :=
      bind_map_left UInt64.toNat (wire Vint.readUnsigned) _
    rw [hread]
    refine (accepts_wire Vint.accepts_readUnsigned).bind fun front n hpos =>
      (accepts_readBare n.toNat).mono fun back v hv => ?_
    have hlen : (front ++ back).length = front.length + back.length := List.length_append
    exact h.framed hv.2 (by omega) (by omega)

/-- A field that is null counts as one node, and may have no byte at all. -/
theorem Affords.field (h : Affords decode factor) (hpos : 0 < factor) :
    Accepts (readField decode) fun front field =>
      Value.optionNodes field ≤ max front.length 1 * factor := by
  have hnull (front : Bytes) : Value.optionNodes none ≤ max front.length 1 * factor :=
    Nat.mul_pos (lt_max_of_lt_right Nat.zero_lt_one) hpos
  refine (accepts_wire accepts_optionalBytes).bind fun front part hpart => ?_
  cases part with
  | none => exact accepts_pure (hnull _)
  | some part =>
    obtain ⟨rfl, -⟩ := hpart part rfl
    refine accepts_ofExcept.map ?_
    rintro back v ⟨rfl, hv⟩
    rw [List.append_nil]
    exact (h.sized hv).trans (Nat.mul_le_mul_right factor (Nat.le_max_left ..))

theorem Affords.lateField (h : Affords decode factor) (hpos : 0 < factor) :
    Accepts (readLateField decode) fun front field =>
      Value.optionNodes field ≤ max front.length 1 * factor := by
  intro bytes field rest hread
  obtain ⟨left, middle, hleft, hread⟩ := Reader.bind_eq_ok.mp hread
  cases hleft
  split at hread
  · cases hread
    exact ⟨[], rfl, Nat.mul_pos Nat.zero_lt_one hpos⟩
  · exact h.field hpos _ _ _ hread

/-- Items that each pay for themselves pay for all of them, also where some have no bytes. -/
theorem accepts_mapM {α β : Type} {read : β → Reader DecodeFault α} {nodes : α → Nat}
    {factor : β → Nat} {items : List β}
    (h : ∀ item ∈ items, Accepts (read item) fun front a =>
      nodes a ≤ max front.length 1 * factor item) :
    Accepts (items.mapM read) fun front as =>
      (as.map nodes).sum ≤ max front.length 1 * (items.map factor).sum := by
  induction items with
  | nil => exact accepts_pure (Nat.zero_le _)
  | cons item items ih =>
    rw [List.forall_mem_cons] at h
    rw [List.mapM_cons]
    refine h.1.bind fun front a ha => (ih h.2).map fun back as has => ?_
    rw [List.map_cons, List.sum_cons, List.map_cons, List.sum_cons, List.length_append, Nat.mul_add]
    refine Nat.add_le_add (ha.trans (Nat.mul_le_mul_right _ ?_))
      (has.trans (Nat.mul_le_mul_right _ ?_))
    · omega
    · omega

end Parts

section Containers

variable {decode decodeKey decodeValue : PartDecoder} {factor keyFactor valueFactor : Nat}
  {bytes : Bytes}

theorem Affords.elements (h : Affords decode factor) {vs : List Value}
    (hvs : (Codec.elements decode).outcome bytes = .ok vs) :
    Value.allNodes vs ≤ bytes.length * factor := by
  obtain ⟨-, parts, rfl, hlen, heach⟩ := parts_of_counted h.element hvs
  rw [Value.allNodes_eq, List.length_append]
  exact (sum_le_length_flatten_mul Value.nodes factor hlen heach).trans
    (Nat.mul_le_mul_right factor (Nat.le_add_left ..))

theorem Affords.entries (hkey : Affords decodeKey keyFactor)
    (hvalue : Affords decodeValue valueFactor) {pairs : List (Value × Value)}
    (hpairs : (Codec.entries decodeKey decodeValue).outcome bytes = .ok pairs) :
    Value.entryNodes pairs ≤ bytes.length * (keyFactor + valueFactor) := by
  obtain ⟨-, parts, rfl, hlen, heach⟩ := parts_of_counted accepts_entry hpairs
  rw [Value.entryNodes_eq, List.length_append]
  refine (sum_le_length_flatten_mul _ (keyFactor + valueFactor) hlen fun pair hpair => ?_).trans
    (Nat.mul_le_mul_right _ (Nat.le_add_left ..))
  obtain ⟨keyPart, valuePart, hpart, ⟨-, hk⟩, -, hv⟩ := heach pair hpair
  rw [hpart, List.length_append, Nat.mul_add]
  refine Nat.add_le_add ((hkey.sized hk).trans (Nat.mul_le_mul_right _ ?_))
    ((hvalue.sized hv).trans (Nat.mul_le_mul_right _ ?_))
  · omega
  · omega

/-- Elements without bytes are as many as there are dimensions. -/
theorem Affords.components (h : Affords decode factor) {dimensions : Nat} {size : Option Nat}
    {vs : List Value} (hvs : (Codec.components dimensions size decode).outcome bytes = .ok vs) :
    Value.allNodes vs ≤
      max bytes.length 1 * ((if size = some 0 then max dimensions 1 else 1) * factor) := by
  rw [Value.allNodes_eq]
  split
  · rename_i hempty
    subst hempty
    obtain ⟨hlen, parts, rfl, hwidth, heach⟩ := parts_of_components hvs
    -- What is made of no bytes is made once for each dimension.
    have hsingle : ∀ n ∈ vs.map Value.nodes, n ≤ factor := by
      intro n hn
      obtain ⟨v, hv, rfl⟩ := List.mem_map.mp hn
      obtain ⟨part, hpair⟩ := Descriptor.exists_mem_zip hwidth hv
      obtain ⟨hpart, hread⟩ := heach _ hpair
      have hle := h part v hread
      rwa [hpart, Nat.max_eq_right (Nat.zero_le 1), Nat.one_mul] at hle
    calc (vs.map Value.nodes).sum
        ≤ (vs.map Value.nodes).length * factor := List.sum_le_card_nsmul _ factor hsingle
      _ = dimensions * factor := by rw [List.length_map, hlen]
      _ ≤ max dimensions 1 * factor := Nat.mul_le_mul_right factor (Nat.le_max_left ..)
      _ ≤ max parts.flatten.length 1 * (max dimensions 1 * factor) :=
        Nat.le_mul_of_pos_left _ (lt_max_of_lt_right Nat.zero_lt_one)
  · rename_i hsize
    obtain ⟨_, ⟨-, parts, rfl, hlen, heach⟩, rfl⟩ :=
      all_of_nothingLeft (g := id) ((h.component hsize).times dimensions) hvs
    rw [Nat.one_mul]
    exact (sum_le_length_flatten_mul Value.nodes factor hlen heach).trans
      (Nat.mul_le_mul_right factor (Nat.le_max_left ..))

theorem tupleNodes_le {r : Registry} {types : List CqlType}
    (h : ∀ type ∈ types, Affords (r.decode type) type.weight) {fields : List (Option Value)}
    (hfields : (decodeTuple r types []).outcome bytes = .ok fields) :
    Value.tupleNodes fields ≤ max bytes.length 1 * CqlType.allWeights types := by
  rw [decodeTuple_eq] at hfields
  obtain ⟨made, hmade, rfl⟩ := all_of_nothingLeft
    (accepts_mapM fun type htype => (h type htype).field (CqlType.weight_pos type)) hfields
  rw [Value.tupleNodes_eq, CqlType.allWeights_eq]
  exact hmade

theorem fieldNodes_le {r : Registry} {types : List (String × CqlType)}
    (h : ∀ field ∈ types, Affords (r.decode field.2) field.2.weight)
    {fields : List (String × Option Value)}
    (hfields : (decodeFields r types []).outcome bytes = .ok fields) :
    Value.fieldNodes fields ≤ max bytes.length 1 * CqlType.fieldWeights types := by
  rw [decodeFields_eq] at hfields
  have hfield : ∀ field ∈ types, Accepts
      (do return (field.1, ← readLateField (r.decode field.2)) :
        Reader DecodeFault (String × Option Value))
      fun front made => Value.optionNodes made.2 ≤ max front.length 1 * field.2.weight :=
    fun field hmem => ((h field hmem).lateField (CqlType.weight_pos field.2)).map fun _ _ hv => hv
  obtain ⟨made, hmade, rfl⟩ := all_of_nothingLeft (accepts_mapM hfield) hfields
  rw [Value.fieldNodes_eq, CqlType.fieldWeights_eq]
  exact hmade

end Containers

/-! ## What types afford -/

/-- A container takes one node, and the rest is paid for by its bytes. -/
theorem succ_le_max_mul {n length factor : Nat} (h : n ≤ max length 1 * factor) :
    n + 1 ≤ max length 1 * (factor + 1) := by
  rw [Nat.mul_succ]
  exact Nat.add_le_add h (Nat.le_max_right ..)

theorem CqlType.affords_of_children {r : Registry} {type : CqlType}
    (h : ∀ part ∈ type.children, Affords (r.decode part) part.weight) :
    Affords (r.decode type) type.weight := by
  intro bytes v hv
  have hbytes {n factor : Nat} (hn : n ≤ bytes.length * factor) :
      n + 1 ≤ max bytes.length 1 * (factor + 1) :=
    succ_le_max_mul (hn.trans (Nat.mul_le_mul_right factor (Nat.le_max_left ..)))
  cases decoded_of_decode hv with
  | scalar hread =>
    rw [Value.nodes_of_native (Scalar.code_of_decode hread)]
    exact Nat.mul_pos (lt_max_of_lt_right Nat.zero_lt_one) type.weight_pos
  | list hpart hread | set hpart hread =>
    -- The registry may have a vector read as one of these.
    exact (hbytes ((h _ (mem_children_of_element hpart)).elements hread)).trans
      (Nat.mul_le_mul_left _ (weight_lt_of_element hpart))
  | map hread =>
    exact hbytes ((h _ (by simp [children])).entries (h _ (by simp [children])) hread)
  | tuple hread => exact succ_le_max_mul (tupleNodes_le h hread)
  | udt hread =>
    exact succ_le_max_mul
      (fieldNodes_le (fun field hfield => h field.2 (List.mem_map_of_mem hfield)) hread)
  | vector hread => exact succ_le_max_mul ((h _ (List.mem_singleton_self _)).components hread)

theorem CqlType.affords_decode (r : Registry) (type : CqlType) :
    Affords (r.decode type) type.weight := by
  induction type using CqlType.inductionOn with
  | native _ | custom _ => exact affords_of_children fun part h => by cases h
  | list element ih | set element ih | vector element _ ih =>
    exact affords_of_children fun part h => List.mem_singleton.mp h ▸ ih
  | map key value ihk ihv =>
    refine affords_of_children fun part h => ?_
    rcases List.mem_pair.mp h with rfl | rfl
    · exact ihk
    · exact ihv
  | tuple types ih => exact affords_of_children ih
  | udt keyspace name fields ih =>
    refine affords_of_children fun part h => ?_
    obtain ⟨field, hfield, rfl⟩ := List.mem_map.mp h
    exact ih field hfield

/-- Whatever the registry: a value that was read has no more nodes than the weight of its type for
each byte, and no more than the weight if there is none. If no vector within the type has several
elements that take no bytes, these are the nodes of the type. -/
theorem nodes_of_decode (r : Registry) {type : CqlType} {bytes : Bytes} {v : Value}
    (h : r.decode type bytes = .ok v) :
    v.nodes ≤ max bytes.length 1 * type.weight ∧
      (type.SizedElements → v.nodes ≤ (bytes.length + 1) * type.nodes) := by
  have hle := CqlType.affords_decode r type bytes v h
  refine ⟨hle, fun hsized => ?_⟩
  rw [CqlType.weight_eq_nodes hsized] at hle
  exact hle.trans (Nat.mul_le_mul_right _ (by omega))

/-- A vector of two values of a user type, whose only field has come later. -/
def lateItems : CqlType := .vector (.udt "ks" "item" [("n", .native .int)]) 2

theorem sizedElements_lateItems : lateItems.SizedElements := by
  intro element dimensions h
  cases h with
  | here => exact .inr fun hsize => by cases hsize
  | inside hmember hdeeper =>
    obtain rfl := List.mem_singleton.mp hmember
    cases hdeeper with
    | inside hmember hdeeper =>
      obtain rfl := List.mem_singleton.mp hmember
      cases hdeeper with
      | inside hmember _ => cases hmember

theorem nodes_of_decode_lateItems :
    let item := Value.udt "ks" "item" [("n", none)]
    Registry.standard.decode lateItems [0, 0] = .ok (.vector [item, item]) ∧
      (Value.vector [item, item]).nodes = 5 ∧ lateItems.weight = 3 ∧ 5 ≤ max 2 1 * 3 ∧
      lateItems.SizedElements ∧ lateItems.nodes = 3 ∧ 5 ≤ (2 + 1) * 3 := by
  intro item
  have hread : Registry.standard.decode lateItems [0, 0] = .ok (.vector [item, item]) := rfl
  obtain ⟨hle, hsized⟩ := nodes_of_decode Registry.standard hread
  exact ⟨hread, rfl, rfl, hle, sizedElements_lateItems, rfl, hsized sizedElements_lateItems⟩

/-- Vectors of nothing need no bytes, however many of them a vector has. -/
theorem decode_emptyElements {element : CqlType} {size : Nat}
    (hsize : element.fixedSize = .ok (some size)) (dimensions : UInt16) :
    Registry.standard.decode (.vector (.vector element 0) dimensions) [] =
      .ok (.vector (List.replicate dimensions.toNat (.vector []))) := by
  have hempty : (CqlType.vector element 0).fixedSize = .ok (some 0) := by
    rw [CqlType.fixedSize, hsize]
    rfl
  obtain ⟨hfits, hexact⟩ := CqlType.fixedSize_eq_ok.mp hempty
  have hdecode : Registry.standard.decode (.vector element 0) [] = .ok (.vector []) :=
    decode_vector_eq_ok.mpr ⟨hfits.1, [], rfl, rfl⟩
  have hitem : Reads (readComponent (some 0) (Registry.standard.decode (.vector element 0))) []
      (.vector []) := reads_readComponent_bare hdecode
  have htimes (n : Nat) : Reads (Reader.times n
      (readComponent (some 0) (Registry.standard.decode (.vector element 0)))) []
      (List.replicate n (.vector [])) := by
    induction n with
    | zero => exact reads_pure []
    | succ n ih =>
      rw [Reader.times_succ, List.replicate_succ]
      exact hitem.bind (ih.map _)
  have hall : (components dimensions.toNat (some 0)
      (Registry.standard.decode (.vector element 0))).outcome [] =
        .ok (List.replicate dimensions.toNat (.vector [])) :=
    outcome_of_reads "vector" id (htimes dimensions.toNat)
  exact decode_vector_eq_ok.mpr ⟨hfits, _, hexact ▸ hall, rfl⟩

/-- With three of them the value has more nodes than its type, which is read from the name of its
class. -/
theorem nodes_of_emptyElements :
    let type := CqlType.vector (.vector (.native .int) 0) 3
    let v := Value.vector [.vector [], .vector [], .vector []]
    Descriptor.read defaultDepthLimit type.described.wire = .ok type [] ∧
      Registry.standard.decode type [] = .ok v ∧
      ¬ v.nodes ≤ (([] : Bytes).length + 1) * type.nodes := by
  intro type v
  have hdescribed : type.Describable := .vector (.vector (.native _) _) _ (by decide +kernel)
  exact ⟨Descriptor.read_of_describable hdescribed (by decide), rfl, by decide⟩

end CqlClient
