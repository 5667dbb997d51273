import CqlClient.Proofs.Codec.Accepted

/-!
# Values that were read and are written again

* `CqlType.Occurs`: the types that a type is built from, at any depth;
* `canon_of_decode`: a value that was read is already named as its type names it;
* `onlyTooLarge_of_decode`: it can be written again, unless a length gets too large by that;
* `encode_eq_of_decode`: it is written in the bytes it was read from, if nothing in its type leaves
  a choice.
-/

namespace CqlClient

open Codec Scalar

/-! ## Types within types -/

namespace CqlType

/-- A type is a part of another one, or that type itself. -/
inductive Occurs (part : CqlType) : CqlType → Prop
  | here : Occurs part part
  | inside {child whole : CqlType} (member : child ∈ whole.children) (deeper : Occurs part child) :
    Occurs part whole

/-- In every user type a field has a name of its own. -/
def DistinctFields (type : CqlType) : Prop :=
  ∀ keyspace name fields, Occurs (.udt keyspace name fields) type → (fields.map Prod.fst).Nodup

/-- Some values of the type have several encodings, those of its parts apart. -/
def isLoose : CqlType → Bool
  | native type => !type.hasOneForm
  | tuple _ | udt .. => true
  | vector element _ => element.exactSize.isNone
  | _ => false

def HasOneForm (type : CqlType) : Prop := ∀ part, Occurs part type → part.isLoose = false

variable {type part : CqlType}

theorem DistinctFields.child (h : type.DistinctFields) (hpart : part ∈ type.children) :
    part.DistinctFields :=
  fun keyspace name fields hdeep => h keyspace name fields (.inside hpart hdeep)

theorem DistinctFields.of_children
    (hself : ∀ keyspace name fields, type = .udt keyspace name fields →
      (fields.map Prod.fst).Nodup)
    (hchildren : ∀ part ∈ type.children, part.DistinctFields) : type.DistinctFields := by
  intro keyspace name fields h
  cases h with
  | here => exact hself keyspace name fields rfl
  | inside hpart hdeep => exact hchildren _ hpart keyspace name fields hdeep

theorem HasOneForm.child (h : type.HasOneForm) (hpart : part ∈ type.children) :
    part.HasOneForm :=
  fun deep hdeep => h deep (.inside hpart hdeep)

theorem HasOneForm.of_children (hself : type.isLoose = false)
    (hchildren : ∀ part ∈ type.children, part.HasOneForm) : type.HasOneForm := by
  intro deep h
  cases h with
  | here => exact hself
  | inside hpart hdeep => exact hchildren _ hpart deep hdeep

theorem HasOneForm.self (h : type.HasOneForm) : type.isLoose = false := h type .here

end CqlType

/-! ## Values named by their type -/

theorem Native.canon_of_code {type : Native} {v : Value} (h : v.code = .native type) :
    type.canon v = v := by
  cases v <;> cases h <;> rfl

theorem map_canon {element : CqlType} {vs : List Value} (h : ∀ v ∈ vs, element.canon v = v) :
    vs.map element.canon = vs := by
  rw [List.map_congr_left h, List.map_id']

theorem canon_of_decode {type : CqlType} (hdistinct : type.DistinctFields) {bytes : Bytes}
    {v : Value} (h : Registry.standard.decode type bytes = .ok v) : type.canon v = v := by
  induction type using CqlType.inductionOn generalizing bytes v with
  | native type => exact Native.canon_of_code (Scalar.code_of_decode h)
  | custom className => cases h
  | list element ih =>
    obtain ⟨vs, hvs, h⟩ := bind_eq_ok.mp h
    cases h
    have heach : ∀ v ∈ vs, element.canon v = v := fun v hv =>
      (made_of_elements hvs v hv).elim fun _ => ih (hdistinct.child (List.mem_cons_self ..))
    rw [CqlType.canon, map_canon heach]
  | set element ih =>
    obtain ⟨vs, hvs, h⟩ := bind_eq_ok.mp h
    cases h
    have heach : ∀ v ∈ vs, element.canon v = v := fun v hv =>
      (made_of_elements hvs v hv).elim fun _ => ih (hdistinct.child (List.mem_cons_self ..))
    rw [CqlType.canon, map_canon heach]
  | map key value ihk ihv =>
    obtain ⟨pairs, hpairs, h⟩ := bind_eq_ok.mp h
    cases h
    have heach : ∀ pair ∈ pairs, (key.canon pair.1, value.canon pair.2) = pair := by
      intro pair hpair
      obtain ⟨⟨_, hk⟩, _, hv⟩ := made_of_entries hpairs pair hpair
      rw [ihk (hdistinct.child (by simp [CqlType.children])) hk,
        ihv (hdistinct.child (by simp [CqlType.children])) hv]
    rw [CqlType.canon, List.map_congr_left heach, List.map_id']
  | tuple types ih =>
    obtain ⟨fields, hfields, h⟩ := bind_eq_ok.mp h
    cases h
    obtain ⟨hwidth, heach⟩ := made_of_decodeTuple hfields
    have hsame : ∀ field ∈ types.zip fields, field.2.map field.1.canon = field.2 := by
      intro field hmem
      have hchild := (List.of_mem_zip hmem).1
      cases hv : field.2 with
      | none => rfl
      | some v =>
        obtain ⟨part, hpart⟩ := heach field hmem v hv
        rw [Option.map_some, ih _ hchild (hdistinct.child hchild) hpart]
    rw [CqlType.canon, canonTuple_eq, List.map_congr_left hsame,
      List.map_snd_zip (Nat.le_of_eq hwidth.symm)]
  | udt keyspace name types ih =>
    obtain ⟨fields, hfields, h⟩ := bind_eq_ok.mp h
    cases h
    obtain ⟨hnames, heach⟩ := made_of_decodeFields hfields
    have hlen := (map_fst_eq_iff.mp hnames).1
    have hnodup := hdistinct keyspace name types .here
    have hfield : ∀ pair ∈ types.zip fields,
        (pair.1.1, (fields.lookup pair.1.1).join.map pair.1.2.canon) = pair.2 := by
      intro pair hmem
      obtain ⟨hsame, hfield⟩ := lookup_of_mem_zip hnodup hnames hmem
      have hchild := (List.of_mem_zip hmem).1
      have hcanon : pair.2.2.map pair.1.2.canon = pair.2.2 := by
        cases hv : pair.2.2 with
        | none => rfl
        | some v =>
          obtain ⟨part, hpart⟩ := heach _ hmem v hv
          have hdeep := hdistinct.child (List.mem_map_of_mem hchild)
          rw [Option.map_some, ih _ hchild hdeep hpart]
      rw [hfield, Option.join_some, hcanon, hsame]
    have hcanon : CqlType.canonFields types fields = fields := by
      rw [canonFields_eq]
      conv => lhs; rw [← List.map_fst_zip (Nat.le_of_eq hlen), List.map_map]
      exact (List.map_congr_left hfield).trans (List.map_snd_zip (Nat.le_of_eq hlen.symm))
    rw [CqlType.canon, hcanon]
  | vector element dimensions ih =>
    obtain ⟨-, vs, hvs, rfl⟩ := decode_vector_eq_ok.mp h
    have heach : ∀ v ∈ vs, element.canon v = v := fun v hv =>
      ((made_of_components hvs).2 v hv).elim fun _ => ih (hdistinct.child (List.mem_cons_self ..))
    rw [CqlType.canon, map_canon heach]

/-! ## Writing that fails for a length only -/

/-- If the result is a failure, then a length does not fit its prefix. -/
def OnlyTooLarge {α : Type} (x : Except EncodeFault α) : Prop :=
  ∀ fault, x = .error fault → ∃ size, fault = .tooLarge size

namespace OnlyTooLarge

variable {α β : Type}

theorem ok (a : α) : OnlyTooLarge (.ok a) := nofun

theorem tooLarge (size : ValueTooLarge) : OnlyTooLarge (.error (.tooLarge size) : Except _ α) := by
  rintro fault ⟨⟩
  exact ⟨size, rfl⟩

theorem bind {x : Except EncodeFault α} {f : α → Except EncodeFault β} (hx : OnlyTooLarge x)
    (hf : ∀ a, x = .ok a → OnlyTooLarge (f a)) : OnlyTooLarge (x >>= f) :=
  FaultsIn.bind hx hf

theorem map {x : Except EncodeFault α} (g : α → β) (hx : OnlyTooLarge x) :
    OnlyTooLarge (g <$> x) :=
  FaultsIn.map g hx

theorem mapM {f : α → Except EncodeFault β} {as : List α} (h : ∀ a ∈ as, OnlyTooLarge (f a)) :
    OnlyTooLarge (as.mapM f) :=
  FaultsIn.mapM h

theorem count (n : Nat) : OnlyTooLarge (Codec.count n) := by
  unfold Codec.count
  split
  · exact ok _
  · exact tooLarge _

theorem sized (v : Value) (bytes : Bytes) : OnlyTooLarge (Framing.sized v bytes) := by
  unfold Framing.sized Wire.lengthPrefixed
  dsimp only
  split
  · exact ok _
  · exact tooLarge _

theorem vintSized (v : Value) (bytes : Bytes) : OnlyTooLarge (Framing.vintSized v bytes) := by
  unfold Framing.vintSized
  dsimp only
  split
  · exact ok _
  · exact tooLarge _

variable {type : CqlType}

theorem framed {v : Value} (h : OnlyTooLarge (Registry.standard.encode v (some type))) :
    OnlyTooLarge (Registry.standard.encodeFramed .sized (some type) v) :=
  h.bind fun bytes _ => sized v bytes

theorem field {v : Option Value}
    (h : ∀ a ∈ v, OnlyTooLarge (Registry.standard.encode a (some type))) :
    OnlyTooLarge (Registry.standard.encodeSized v (some type)) := by
  cases v with
  | none => exact ok Wire.null
  | some a => exact (h a rfl).framed

end OnlyTooLarge

/-! ## Writing again -/

theorem length_flatten {parts : List Bytes} {size : Nat} (h : ∀ part ∈ parts, part.length = size) :
    parts.flatten.length = size * parts.length := by
  induction parts with
  | nil => rfl
  | cons part parts ih =>
    obtain ⟨hfirst, hrest⟩ := List.forall_mem_cons.mp h
    rw [List.flatten_cons, List.length_append, hfirst, ih hrest, List.length_cons, Nat.mul_succ,
      Nat.add_comm]

/-- A type of a fixed size accepts no bytes of another length. -/
theorem length_of_decode {type : CqlType} {size : Nat} (hsize : type.exactSize = some size)
    {bytes : Bytes} {v : Value} (h : Registry.standard.decode type bytes = .ok v) :
    bytes.length = size := by
  induction type using CqlType.inductionOn generalizing size bytes v with
  | native type => exact Scalar.length_of_decode hsize h
  | vector element dimensions ih =>
    obtain ⟨part, hpart, rfl⟩ := Option.map_eq_some_iff.mp hsize
    obtain ⟨-, vs, hvs, -⟩ := decode_vector_eq_ok.mp h
    rw [hpart] at hvs
    obtain ⟨parts, rfl, hwidth, hparts, -⟩ := mapM_of_components hvs
    rw [length_flatten hparts, hwidth]
  | _ => cases hsize

theorem length_of_encode {type : CqlType} {size : Nat} (hsize : type.exactSize = some size)
    {v : Value} {bytes : Bytes} (h : Registry.standard.encode v (some type) = .ok bytes) :
    bytes.length = size :=
  length_of_decode hsize (readsBack type v bytes h)

theorem onlyTooLarge_counted {element : CqlType} {vs : List Value}
    (h : ∀ v ∈ vs, OnlyTooLarge (Registry.standard.encode v (some element))) :
    OnlyTooLarge (Registry.standard.encodeCounted element vs) := by
  have hparts := OnlyTooLarge.mapM fun v hv => (h v hv).framed
  exact (OnlyTooLarge.count _).bind fun front _ => hparts.bind fun parts _ => .ok _

/-- The elements of a vector have the size that their type fixes. -/
theorem onlyTooLarge_component {element : CqlType} {v : Value}
    (h : OnlyTooLarge (Registry.standard.encode v (some element))) :
    OnlyTooLarge (Registry.standard.encodeFramed (vectorFraming element.exactSize) (some element)
      v) := by
  refine h.bind fun bytes hbytes => ?_
  cases hsize : element.exactSize with
  | none => exact OnlyTooLarge.vintSized v bytes
  | some size =>
    have hlen := length_of_encode hsize hbytes
    show OnlyTooLarge (Framing.bare size v bytes)
    rw [Framing.bare, if_pos hlen]
    exact .ok bytes

theorem onlyTooLarge_of_decode {type : CqlType} (hdistinct : type.DistinctFields) {bytes : Bytes}
    {v : Value} (h : Registry.standard.decode type bytes = .ok v) :
    OnlyTooLarge (Registry.standard.encode v (some type)) := by
  induction type using CqlType.inductionOn generalizing bytes v with
  | native type =>
    obtain ⟨written, hwritten, -⟩ := Scalar.encode_of_decode h
    rw [encode_native, hwritten]
    exact .ok written
  | custom className => cases h
  | list element ih =>
    obtain ⟨vs, hvs, h⟩ := bind_eq_ok.mp h
    cases h
    rw [encode_list]
    exact onlyTooLarge_counted fun v hv =>
      (made_of_elements hvs v hv).elim fun _ => ih (hdistinct.child (List.mem_cons_self ..))
  | set element ih =>
    obtain ⟨vs, hvs, h⟩ := bind_eq_ok.mp h
    cases h
    rw [encode_set]
    exact onlyTooLarge_counted fun v hv =>
      (made_of_elements hvs v hv).elim fun _ => ih (hdistinct.child (List.mem_cons_self ..))
  | map key value ihk ihv =>
    obtain ⟨pairs, hpairs, h⟩ := bind_eq_ok.mp h
    cases h
    have hentries : ∀ pair ∈ pairs,
        OnlyTooLarge (Registry.standard.encodeEntry (some key) (some value) pair) := by
      intro pair hpair
      obtain ⟨⟨_, hk⟩, _, hv⟩ := made_of_entries hpairs pair hpair
      have hkey := ihk (hdistinct.child (by simp [CqlType.children])) hk
      have hvalue := ihv (hdistinct.child (by simp [CqlType.children])) hv
      exact hkey.framed.bind fun k _ => hvalue.framed.bind fun v _ => .ok _
    rw [encode_map]
    exact (OnlyTooLarge.count _).bind fun front _ =>
      (OnlyTooLarge.mapM hentries).bind fun parts _ => .ok _
  | tuple types ih =>
    obtain ⟨fields, hfields, h⟩ := bind_eq_ok.mp h
    cases h
    obtain ⟨hwidth, heach⟩ := made_of_decodeTuple hfields
    rw [encode_tuple hwidth]
    refine (OnlyTooLarge.mapM fun field hmem => OnlyTooLarge.field fun v hv => ?_).map _
    obtain ⟨part, hpart⟩ := heach field hmem v hv
    have hchild := (List.of_mem_zip hmem).1
    exact ih _ hchild (hdistinct.child hchild) hpart
  | udt keyspace name types ih =>
    obtain ⟨fields, hfields, h⟩ := bind_eq_ok.mp h
    cases h
    obtain ⟨hnames, heach⟩ := made_of_decodeFields hfields
    have hlen := (map_fst_eq_iff.mp hnames).1
    have hnodup := hdistinct keyspace name types .here
    rw [encode_udt, undeclared?_eq_none hnames, Option.elim_none, writeDeclared_eq,
      ← List.map_fst_zip (Nat.le_of_eq hlen), List.mapM_map]
    refine (OnlyTooLarge.mapM fun field hmem => OnlyTooLarge.field fun v hv => ?_).map _
    rw [(lookup_of_mem_zip hnodup hnames hmem).2, Option.join_some] at hv
    obtain ⟨part, hpart⟩ := heach _ hmem v hv
    have hchild := (List.of_mem_zip hmem).1
    exact ih _ hchild (hdistinct.child (List.mem_map_of_mem hchild)) hpart
  | vector element dimensions ih =>
    obtain ⟨hfits, vs, hvs, rfl⟩ := decode_vector_eq_ok.mp h
    obtain ⟨hlen, heach⟩ := made_of_components hvs
    rw [encode_vector_of_fits hfits hlen]
    refine (OnlyTooLarge.mapM fun v hv => onlyTooLarge_component ?_).map _
    exact (heach v hv).elim fun _ => ih (hdistinct.child (List.mem_cons_self ..))

/-! ## Writing the same bytes again -/

theorem framed_eq_ok {type : CqlType} {v : Value} {part : Bytes}
    (hlen : part.length ≤ Wire.maxInt32)
    (h : Registry.standard.encode v (some type) = .ok part) :
    Registry.standard.encodeFramed .sized (some type) v = .ok (Wire.writeBytes part) :=
  encodeFramed_eq_ok.mpr ⟨part, h, sized_eq_ok.mpr ⟨hlen, rfl⟩⟩

/-- Elements that are each written as they were read are all written as they were read. -/
theorem counted_eq_of_elements {element : CqlType} {bytes : Bytes} {vs : List Value}
    (hvs : (elements (Registry.standard.decode element)).outcome bytes = .ok vs)
    (h : ∀ v part, Registry.standard.decode element part = .ok v →
      Registry.standard.encode v (some element) = .ok part) :
    Registry.standard.encodeCounted element vs = .ok bytes := by
  obtain ⟨hmax, parts, rfl, hwidth, heach⟩ := parts_of_counted accepts_readElement hvs
  have hcount : count vs.length = .ok (Bytes.ofNat 4 vs.length) := count_eq_ok.mpr ⟨hmax, rfl⟩
  have hparts : vs.mapM (Registry.standard.encodeFramed .sized (some element)) = .ok parts := by
    refine mapM_eq_ok_of_zip hwidth fun pair hpair => ?_
    obtain ⟨part, hpart, hlen, hread⟩ := heach pair hpair
    rw [hpart]
    exact framed_eq_ok hlen (h _ _ hread)
  rw [Registry.encodeCounted, hcount, hparts]
  rfl

theorem encode_eq_of_decode {type : CqlType} (hform : type.HasOneForm) {bytes : Bytes} {v : Value}
    (h : Registry.standard.decode type bytes = .ok v) :
    Registry.standard.encode v (some type) = .ok bytes := by
  induction type using CqlType.inductionOn generalizing bytes v with
  | native type =>
    obtain ⟨written, hwritten, hsame⟩ := Scalar.encode_of_decode h
    have hone : type.hasOneForm = true := by simpa [CqlType.isLoose] using hform.self
    rw [encode_native, hwritten, hsame hone]
  | custom className => cases h
  | list element ih =>
    obtain ⟨vs, hvs, h⟩ := bind_eq_ok.mp h
    cases h
    rw [encode_list]
    exact counted_eq_of_elements hvs fun v part => ih (hform.child (List.mem_cons_self ..))
  | set element ih =>
    obtain ⟨vs, hvs, h⟩ := bind_eq_ok.mp h
    cases h
    rw [encode_set]
    exact counted_eq_of_elements hvs fun v part => ih (hform.child (List.mem_cons_self ..))
  | map key value ihk ihv =>
    obtain ⟨pairs, hpairs, h⟩ := bind_eq_ok.mp h
    cases h
    have hkey : key.HasOneForm := hform.child (by simp [CqlType.children])
    have hvalue : value.HasOneForm := hform.child (by simp [CqlType.children])
    obtain ⟨hmax, parts, rfl, hwidth, heach⟩ := parts_of_counted accepts_entry hpairs
    have hcount : count pairs.length = .ok (Bytes.ofNat 4 pairs.length) :=
      count_eq_ok.mpr ⟨hmax, rfl⟩
    have hparts : pairs.mapM (Registry.standard.encodeEntry (some key) (some value)) =
        .ok parts := by
      refine mapM_eq_ok_of_zip hwidth fun pair hpair => ?_
      obtain ⟨keyPart, valuePart, hpart, ⟨hklen, hk⟩, hvlen, hv⟩ := heach pair hpair
      rw [hpart, Registry.encodeEntry, framed_eq_ok hklen (ihk hkey hk),
        framed_eq_ok hvlen (ihv hvalue hv)]
      rfl
    rw [encode_map, hcount, hparts]
    rfl
  | tuple types ih => cases hform.self
  | udt keyspace name types ih => cases hform.self
  | vector element dimensions ih =>
    obtain ⟨hfits, vs, hvs, rfl⟩ := decode_vector_eq_ok.mp h
    cases hsize : element.exactSize with
    | none =>
      have hself := hform.self
      simp [CqlType.isLoose, hsize] at hself
    | some size =>
      rw [hsize] at hvs
      obtain ⟨hlen, parts, rfl, hwidth, heach⟩ := parts_of_components hvs
      have hparts : vs.mapM (Registry.standard.encodeFramed (vectorFraming (some size))
          (some element)) = .ok parts := by
        refine mapM_eq_ok_of_zip hwidth fun pair hpair => ?_
        obtain ⟨hpart, hread⟩ := heach pair hpair
        have hencode := ih (hform.child (List.mem_cons_self ..)) hread
        exact encodeFramed_eq_ok.mpr ⟨pair.2, hencode, if_pos hpart⟩
      rw [encode_vector_of_fits hfits hlen, hsize, hparts]
      rfl

/-- A value that was read by a type whose user types have distinct field names is written again, and
read again as it is, unless a length has got too large; and if no part of the type leaves a choice,
it is written in the bytes it was read from. -/
theorem stable_of_decode {type : CqlType} (hdistinct : type.DistinctFields) {bytes : Bytes}
    {v : Value} (h : Registry.standard.decode type bytes = .ok v) :
    ((∃ size, Registry.standard.encode v (some type) = .error (.tooLarge size)) ∨
      ∃ written, Registry.standard.encode v (some type) = .ok written ∧
        Registry.standard.decode type written = .ok v) ∧
    (type.HasOneForm → Registry.standard.encode v (some type) = .ok bytes) := by
  refine ⟨?again, fun hform => encode_eq_of_decode hform h⟩
  case again =>
    have hwrite := onlyTooLarge_of_decode hdistinct h
    cases hencode : Registry.standard.encode v (some type) with
    | error fault =>
      obtain ⟨size, rfl⟩ := hwrite fault hencode
      exact .inl ⟨size, rfl⟩
    | ok written =>
      have hread := readsBack type v written hencode
      rw [canon_of_decode hdistinct h] at hread
      exact .inr ⟨written, rfl, hread⟩

/-- A number with a needless sign byte, a text behind a longer length than it needs and a field that
is missing are written in other bytes; a list of vectors of a fixed size is written in the same. -/
theorem stable_of_decode_udt :
    (let type := CqlType.udt "ks" "item" [("n", .native .varint), ("at", .vector (.native .text) 1),
        ("late", .native .boolean)]
      let v := Value.udt "ks" "item" [("n", some (.varint (.ofBytes [5]))),
        ("at", some (.vector [.text "a"])), ("late", none)]
      type.DistinctFields ∧
      Registry.standard.decode type [0, 0, 0, 2, 0, 5, 0, 0, 0, 3, 0x80, 1, 97] = .ok v ∧
      ∃ written, Registry.standard.encode v (some type) = .ok written ∧
        Registry.standard.decode type written = .ok v) ∧
    (let type := CqlType.list (.vector (.native .float) 1)
      let v := Value.list [.vector [.float 7]]
      type.HasOneForm ∧
      Registry.standard.decode type [0, 0, 0, 1, 0, 0, 0, 4, 0, 0, 0, 7] = .ok v ∧
      Registry.standard.encode v (some type) = .ok [0, 0, 0, 1, 0, 0, 0, 4, 0, 0, 0, 7]) := by
  have hnative : ∀ type, (CqlType.native type).DistinctFields := fun type =>
    .of_children (fun _ _ _ heq => by cases heq) (List.forall_mem_nil _)
  have hvector : ∀ type n, (CqlType.vector (.native type) n).DistinctFields := fun type n =>
    .of_children (fun _ _ _ heq => by cases heq)
      (by simpa [CqlType.children] using hnative type)
  constructor
  · intro type v
    have hdistinct : type.DistinctFields := by
      refine .of_children ?_ ?_
      · intro keyspace name fields heq
        rw [← (CqlType.udt.inj heq).2.2]
        decide
      · simp [type, CqlType.children, hnative, hvector]
    have hread : Registry.standard.decode type [0, 0, 0, 2, 0, 5, 0, 0, 0, 3, 0x80, 1, 97] =
        .ok v := rfl
    refine ⟨hdistinct, hread, ?_⟩
    rcases (stable_of_decode hdistinct hread).1 with ⟨size, hlarge⟩ | hagain
    · cases hlarge
    · exact hagain
  · intro type v
    have hdistinct : type.DistinctFields :=
      .of_children (by simp [type]) (by simpa [type, CqlType.children] using hvector .float 1)
    have hfloat : (CqlType.native .float).HasOneForm :=
      .of_children rfl (List.forall_mem_nil _)
    have hone : (CqlType.vector (.native .float) 1).HasOneForm :=
      .of_children rfl (by simpa [CqlType.children] using hfloat)
    have hform : type.HasOneForm :=
      .of_children rfl (by simpa [type, CqlType.children] using hone)
    exact ⟨hform, rfl, (stable_of_decode hdistinct rfl).2 hform⟩

end CqlClient
