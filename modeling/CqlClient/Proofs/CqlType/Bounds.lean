import CqlClient.Proofs.CqlType.ClassName
import CqlClient.Proofs.CqlType.Descriptor
import Mathlib.Algebra.Order.BigOperators.Group.List
import Mathlib.Algebra.Order.Group.Nat

/-!
# Types are bounded by what describes them

Whoever describes types chooses counts and class names freely. Proved here, for every byte string:

* `Descriptor.settles_read`: what comes of reading a type depends on the bytes that are consumed and
  on nothing behind them, unless some are missing;
* `ClassName.bounded_of_parseWithin`: a class name is parsed as a type of no more nodes than it has
  characters, and one;
* `Descriptor.accepts_bounded`: a type that is read is no higher than the limit and has no more
  nodes than bytes were consumed;
* `Descriptor.read_bounded`: all of that, for the types in column metadata.
-/

namespace CqlClient

/-! ## What follows the consumed bytes -/

section Settles

variable {ε δ α β : Type} {r : Reader ε α} {lacking : ε}

/-- What comes of reading the bytes: a result or a fault that a front of them determines, whatever
stands behind it, or the fault that stands for missing bytes. -/
inductive Settled (r : Reader ε α) (lacking : ε) (bytes : Bytes) : Prop
  | reads {front rest : Bytes} {a : α} (split : bytes = front ++ rest) (reads : Reads r front a)
  | refuses {front rest : Bytes} {e : ε} (split : bytes = front ++ rest)
    (refuses : ∀ more, r (front ++ more) = .error e more)
  | lacks {left : Bytes} (lacks : r bytes = .error lacking left)

def Settles (r : Reader ε α) (lacking : ε) : Prop := ∀ bytes, Settled r lacking bytes

theorem settles_pure (a : α) (lacking : ε) : Settles (pure a : Reader ε α) lacking :=
  fun bytes => .reads (List.nil_append bytes).symm (reads_pure a)

theorem settles_throw (e lacking : ε) : Settles (throw e : Reader ε α) lacking :=
  fun bytes => .refuses (List.nil_append bytes).symm fun _ => rfl

theorem Settles.bind {f : α → Reader ε β} (hr : Settles r lacking)
    (hf : ∀ a, Settles (f a) lacking) : Settles (r >>= f) lacking := by
  intro bytes
  cases hr bytes with
  | @reads front rest a hsplit hreads =>
    subst hsplit
    cases hf a rest with
    | @reads back rest b hsplit hback =>
      subst hsplit
      exact .reads (List.append_assoc ..).symm (hreads.bind hback)
    | @refuses back rest e hsplit hback =>
      subst hsplit
      have hboth (more : Bytes) : (r >>= f) (front ++ back ++ more) = .error e more := by
        rw [List.append_assoc, bind_of_ok (hreads _), hback]
      exact .refuses (List.append_assoc ..).symm hboth
    | lacks hlacks => exact .lacks ((bind_of_ok (hreads rest)).trans hlacks)
  | refuses hsplit hrefuses => exact .refuses hsplit fun more => bind_of_error (hrefuses more)
  | lacks hlacks => exact .lacks (bind_of_error hlacks)

theorem Settles.map (hr : Settles r lacking) (g : α → β) :
    Settles (r >>= fun a => pure (g a)) lacking := hr.bind fun a => settles_pure (g a) lacking

theorem Settles.mapError (hr : Settles r lacking) (g : ε → δ) :
    Settles (r.mapError g) (g lacking) := by
  have herror {bytes left : Bytes} {e : ε} (h : r bytes = .error e left) :
      r.mapError g bytes = .error (g e) left := by
    show EStateM.adaptExcept g r bytes = _
    rw [EStateM.adaptExcept, h]
  intro bytes
  cases hr bytes with
  | reads hsplit hreads => exact .reads hsplit (hreads.mapError g)
  | refuses hsplit hrefuses => exact .refuses hsplit fun more => herror (hrefuses more)
  | lacks hlacks => exact .lacks (herror hlacks)

theorem Settles.times (hr : Settles r lacking) (n : Nat) : Settles (Reader.times n r) lacking := by
  induction n with
  | zero => exact settles_pure [] lacking
  | succ n ih =>
    rw [Reader.times_succ]
    exact hr.bind fun a => ih.map (a :: ·)

theorem settles_ofExcept (result : Except ε α) (lacking : ε) :
    Settles (Reader.ofExcept result) lacking := by
  cases result with
  | ok a => exact settles_pure a lacking
  | error e => exact settles_throw e lacking

theorem settles_raw (n : Nat) : Settles (Wire.raw n) .endOfInput := by
  intro bytes
  cases hread : Wire.raw n bytes with
  | ok front rest =>
    obtain ⟨front, rfl, rfl, hlen⟩ := accepts_raw n _ _ _ hread
    exact .reads rfl (reads_raw hlen)
  | error e left => exact .lacks (raw_eq_error hread ▸ hread)

theorem settles_uint16 : Settles Wire.uint16 .endOfInput := (settles_raw 2).map Bytes.toUInt16

theorem settles_string : Settles Wire.string .endOfInput := by
  refine (settles_uint16.bind fun n => settles_raw n.toNat).bind fun bytes => ?_
  cases Utf8.decode bytes with
  | error fault => exact settles_throw _ _
  | ok text => exact settles_pure text _

end Settles

namespace Descriptor

theorem settles_readBody {readClass nested : TypeReader CqlType}
    (hclass : Settles readClass cutShort) (hnested : Settles nested cutShort) (code : UInt16) :
    Settles (readBody readClass nested code) cutShort := by
  have hname : Settles (wire Wire.string) cutShort := settles_string.mapError _
  have hcount : Settles (wire Wire.uint16) cutShort := settles_uint16.mapError _
  have hfield : Settles (readField nested) cutShort := hname.bind fun name => hnested.map _
  rw [readBody]
  cases TypeCode.ofWire? code with
  | none => exact settles_throw _ _
  | some code =>
    cases code with
    | custom => exact hclass
    | native type => exact settles_pure _ _
    | varchar => exact settles_pure _ _
    | list => exact hnested.map _
    | set => exact hnested.map _
    | map => exact hnested.bind fun key => hnested.map _
    | tuple => exact hcount.bind fun count => (hnested.times _).map _
    | udt =>
      exact hname.bind fun keyspace => hname.bind fun name => hcount.bind fun count =>
        (hfield.times _).map _
    | vector => exact settles_throw _ _

/-- What comes of reading a type depends on the bytes that are consumed alone. -/
theorem settles_read (limit : Nat) : Settles (read limit) cutShort := by
  have hread (room : Nat) : Settles (readWith (readClass limit) limit room) cutShort := by
    induction room with
    | zero => exact settles_throw _ _
    | succ room ih =>
      have hclass : Settles (readClass limit room) cutShort :=
        (settles_string.mapError _).bind fun _ => settles_ofExcept _ _
      exact (settles_uint16.mapError _).bind fun code => settles_readBody hclass ih code
  exact hread (limit + 1)

end Descriptor

/-! ## Nodes -/

namespace CqlType

mutual

/-- How many types a type is made of, itself included. -/
def nodes : CqlType → Nat
  | native _ | custom _ => 1
  | list element | set element | vector element _ => element.nodes + 1
  | map key value => key.nodes + value.nodes + 1
  | tuple elements => allNodes elements + 1
  | udt _ _ fields => fieldNodes fields + 1

def allNodes : List CqlType → Nat
  | [] => 0
  | type :: types => type.nodes + allNodes types

def fieldNodes : List (String × CqlType) → Nat
  | [] => 0
  | (_, type) :: fields => type.nodes + fieldNodes fields

end

theorem allNodes_eq (types : List CqlType) : allNodes types = (types.map nodes).sum := by
  induction types with
  | nil => rfl
  | cons type types ih => rw [allNodes, ih, List.map_cons, List.sum_cons]

theorem fieldNodes_eq (fields : List (String × CqlType)) :
    fieldNodes fields = (fields.map (·.2.nodes)).sum := by
  induction fields with
  | nil => rfl
  | cons field fields ih => rw [fieldNodes, ih, List.map_cons, List.sum_cons]

end CqlType

/-- Items that each weigh no more than `factor` for a byte of their own part. -/
theorem sum_le_length_flatten_mul {α : Type} (weight : α → Nat) (factor : Nat) {items : List α}
    {parts : List Bytes} (hlen : items.length = parts.length)
    (h : ∀ pair ∈ items.zip parts, weight pair.1 ≤ pair.2.length * factor) :
    (items.map weight).sum ≤ parts.flatten.length * factor := by
  induction items generalizing parts with
  | nil => exact Nat.zero_le _
  | cons item items ih =>
    cases parts with
    | nil => cases hlen
    | cons part parts =>
      rw [List.zip_cons_cons, List.forall_mem_cons] at h
      have hrest := ih (Nat.succ.inj hlen) h.2
      rw [List.map_cons, List.sum_cons, List.flatten_cons, List.length_append, Nat.add_mul]
      exact Nat.add_le_add h.1 hrest

theorem sum_le_length_flatten {α : Type} (weight : α → Nat) {items : List α} {parts : List Bytes}
    (hlen : items.length = parts.length)
    (h : ∀ pair ∈ items.zip parts, weight pair.1 ≤ pair.2.length) :
    (items.map weight).sum ≤ parts.flatten.length := by
  have hsum := sum_le_length_flatten_mul weight 1 hlen fun pair hpair =>
    (h pair hpair).trans_eq (Nat.mul_one _).symm
  rwa [Nat.mul_one] at hsum

/-! ## Class names -/

namespace ClassName

/-- The parameters of a class and the commas between them fit in its brackets. -/
theorem sum_length_parameters_le (cs : List Char) :
    ((parameters cs).map (·.length + 1)).sum ≤ cs.length + 1 := by
  rw [parameters, List.map_map, ← Text.sum_length_pieces '(' ')']
  exact List.sum_le_sum fun piece _ => Nat.succ_le_succ (Text.length_trimBlank_le piece)

theorem length_le_of_parameter {inner param : List Char} (h : parameters inner = [param]) :
    param.length ≤ inner.length := by
  have hsum := sum_length_parameters_le inner
  simp only [h, List.map_cons, List.map_nil, List.sum_cons, List.sum_nil] at hsum
  omega

theorem length_le_of_parameters {inner first second : List Char}
    (h : parameters inner = [first, second]) :
    first.length + second.length + 1 ≤ inner.length := by
  have hsum := sum_length_parameters_le inner
  simp only [h, List.map_cons, List.map_nil, List.sum_cons, List.sum_nil] at hsum
  omega

/-- Every node but one has a character of its own: a parameter that is empty stands behind a bracket
or a comma. -/
theorem bounded_of_parseWithin {limit room : Nat} {cs : List Char} {type : CqlType}
    (h : parseWithin limit room cs = .ok type) :
    type.height < room ∧ type.nodes ≤ cs.length + 1 := by
  induction room generalizing cs type with
  | zero =>
    rw [parseWithin_zero] at h
    cases h
  | succ room ih =>
    cases made_of_parseWithin h with
    | native type => exact ⟨Nat.succ_pos room, Nat.le_add_left 1 _⟩
    | custom className => exact ⟨Nat.succ_pos room, Nat.le_add_left 1 _⟩
    | frozen hroom hparams hpart =>
      obtain ⟨hheight, hnodes⟩ := ih hpart
      have hlength := length_le_of_parameter hparams
      omega
    | list hroom hparams hpart =>
      obtain ⟨hheight, hnodes⟩ := ih hpart
      have hlength := length_le_of_parameter hparams
      rw [CqlType.height, CqlType.nodes]
      omega
    | set hroom hparams hpart =>
      obtain ⟨hheight, hnodes⟩ := ih hpart
      have hlength := length_le_of_parameter hparams
      rw [CqlType.height, CqlType.nodes]
      omega
    | map hroom hparams hkeys' hvalues' =>
      obtain ⟨hkey, hkeys⟩ := ih hkeys'
      obtain ⟨hvalue, hvalues⟩ := ih hvalues'
      have hlength := length_le_of_parameters hparams
      rw [CqlType.height, CqlType.nodes]
      omega
    | vector dimensions hroom hparams hpart =>
      obtain ⟨hheight, hnodes⟩ := ih hpart
      have hlength := length_le_of_parameters hparams
      rw [CqlType.height, CqlType.nodes]
      omega

end ClassName

/-! ## Types in column metadata -/

namespace Descriptor

/-- The type opens fewer levels than there is room for, and has no more nodes than there are
bytes. -/
def Bounded (room : Nat) (front : Bytes) (type : CqlType) : Prop :=
  type.height < room ∧ type.nodes ≤ front.length

theorem length_writeString (s : String) :
    (Wire.writeString s).length = 2 + (Utf8.encode s).length := by
  rw [Wire.writeString, Wire.writeShortBytes, List.length_append, Bytes.length_ofNat]

theorem accepts_readClass (limit room : Nat) :
    Accepts (readClass limit room) (Bounded (room + 1)) := by
  refine (accepts_string.mapError _).bind ?_
  rintro _ className ⟨rfl, -⟩
  intro bytes type rest hread
  obtain ⟨hparsed, rfl⟩ := Reader.ofExcept_eq_ok.mp hread
  obtain ⟨hheight, hnodes⟩ := ClassName.bounded_of_parseWithin hparsed
  have hlength := Utf8.length_le_encode className
  refine ⟨[], rfl, hheight, ?_⟩
  rw [List.append_nil, length_writeString]
  omega

theorem bounded_tuple {room : Nat} {types : List CqlType} {parts : List Bytes}
    (hlen : types.length = parts.length)
    (h : ∀ pair ∈ types.zip parts, Bounded room pair.2 pair.1) :
    Bounded (room + 1) (writeCounted parts) (.tuple types) := by
  constructor
  · refine Nat.lt_succ_of_le (CqlType.heights_le.mpr fun type htype => ?_)
    obtain ⟨part, hpair⟩ := exists_mem_zip hlen htype
    exact (h _ hpair).1
  · have hnodes := sum_le_length_flatten CqlType.nodes hlen fun pair hpair => (h pair hpair).2
    rw [CqlType.nodes, CqlType.allNodes_eq, writeCounted, List.length_append, Bytes.length_ofNat]
    omega

theorem bounded_udt {room : Nat} {keyspace name : String} {fields : List (String × CqlType)}
    {parts : List Bytes} (hlen : fields.length = parts.length)
    (h : ∀ pair ∈ fields.zip parts, Bounded room pair.2 pair.1.2) :
    Bounded (room + 1) (writeCounted parts) (.udt keyspace name fields) := by
  constructor
  · refine Nat.lt_succ_of_le (CqlType.fieldHeights_le.mpr fun field hfield => ?_)
    obtain ⟨part, hpair⟩ := exists_mem_zip hlen hfield
    exact (h _ hpair).1
  · have hnodes := sum_le_length_flatten (fun field : String × CqlType => field.2.nodes) hlen
      fun pair hpair => (h pair hpair).2
    rw [CqlType.nodes, CqlType.fieldNodes_eq, writeCounted, List.length_append,
      Bytes.length_ofNat]
    omega

theorem Bounded.behind {room : Nat} {back : Bytes} {type : CqlType} (h : Bounded room back type)
    (front : Bytes) : Bounded room (front ++ back) type :=
  ⟨h.1, by rw [List.length_append]; exact Nat.le_add_left_of_le h.2⟩

theorem accepts_readFieldOf {room : Nat} {nested : TypeReader CqlType}
    (h : Accepts nested (Bounded room)) :
    Accepts (readField nested) fun front field => Bounded room front field.2 := by
  intro bytes field rest hread
  obtain ⟨front, hfront, -, part, rfl, hpart⟩ := accepts_readField h _ _ _ hread
  exact ⟨_, hfront, hpart.behind _⟩

/-- Every level has a code of two bytes, which pays for its own node. -/
theorem accepts_bounded (limit room : Nat) :
    Accepts (readWith (readClass limit) limit room) (Bounded room) := by
  induction room with
  | zero => exact accepts_throw _
  | succ room ih =>
    refine (accepts_uint16.mapError _).bind ?_
    rintro _ n rfl
    have hcode : (Bytes.ofUInt16 n).length = 2 := Bytes.length_ofNat 2 _
    have hself {type : CqlType} (hheight : type.height = 0) (hnodes : type.nodes = 1) :
        Bounded (room + 1) (Bytes.ofUInt16 n ++ []) type := by
      rw [Bounded, List.append_nil, hcode, hheight, hnodes]
      omega
    rw [readBody]
    cases TypeCode.ofWire? n with
    | none => exact accepts_throw _
    | some code =>
      cases code with
      | custom =>
        intro bytes type rest hread
        obtain ⟨front, hfront, hbounded⟩ := accepts_readClass limit room _ _ _ hread
        exact ⟨front, hfront, hbounded.behind _⟩
      | native type => exact accepts_pure (hself rfl rfl)
      | varchar => exact accepts_pure (hself rfl rfl)
      | list =>
        refine ih.map fun part element helement => ⟨Nat.succ_lt_succ helement.1, ?_⟩
        have hnodes := helement.2
        rw [List.length_append, hcode, CqlType.nodes]
        omega
      | set =>
        refine ih.map fun part element helement => ⟨Nat.succ_lt_succ helement.1, ?_⟩
        have hnodes := helement.2
        rw [List.length_append, hcode, CqlType.nodes]
        omega
      | map =>
        refine ih.bind fun front key hkey => ih.map fun back value hvalue =>
          ⟨Nat.succ_lt_succ (Nat.max_lt.mpr ⟨hkey.1, hvalue.1⟩), ?_⟩
        have hkeys := hkey.2
        have hvalues := hvalue.2
        rw [List.length_append, List.length_append, hcode, CqlType.nodes]
        omega
      | tuple =>
        exact accepts_counted ih fun types parts _ hlen heach =>
          (bounded_tuple hlen heach).behind _
      | udt =>
        refine (accepts_string.mapError _).bind fun owner keyspace _ => ?_
        refine (accepts_string.mapError _).bind fun front name _ => ?_
        refine accepts_counted (accepts_readFieldOf ih) fun fields parts _ hlen heach => ?_
        exact (((bounded_udt hlen heach).behind front).behind owner).behind _
      | vector => exact accepts_throw _

/-- Whatever the bytes: a type that is read from them is nested no deeper than the limit and is made
of no more types than bytes were consumed, and it is read in the same way from the consumed bytes
with anything behind them. So is a refusal, unless it is for missing bytes. -/
theorem read_bounded (limit : Nat) (bytes : Bytes) :
    (∀ type rest, read limit bytes = .ok type rest →
      ∃ front, bytes = front ++ rest ∧ type.height ≤ limit ∧ type.nodes ≤ front.length ∧
        (∀ more, read limit (front ++ more) = .ok type more) ∧
        ∀ more, read limit (bytes ++ more) = .ok type (rest ++ more)) ∧
    ∀ fault rest, read limit bytes = .error fault rest → fault ≠ .truncated .endOfInput →
      ∃ front, bytes = front ++ rest ∧ ∀ more, read limit (front ++ more) = .error fault more := by
  constructor
  · intro type rest hread
    obtain ⟨front, rfl, hheight, hnodes⟩ := accepts_bounded limit (limit + 1) _ _ _ hread
    have hfront : ∀ more, read limit (front ++ more) = .ok type more := by
      cases settles_read limit (front ++ rest) with
      | @reads front' rest' _ hsplit hreads =>
        have hsame := (hreads rest').symm.trans (hsplit ▸ hread)
        cases hsame
        rw [List.append_cancel_right hsplit]
        exact hreads
      | @refuses front' rest' _ hsplit hrefuses =>
        have hsame := (hrefuses rest').symm.trans (hsplit ▸ hread)
        cases hsame
      | lacks hlacks => cases hlacks.symm.trans hread
    refine ⟨front, rfl, Nat.le_of_lt_succ hheight, hnodes, hfront, fun more => ?_⟩
    rw [List.append_assoc]
    exact hfront _
  · intro fault rest hread hfault
    cases settles_read limit bytes with
    | @reads front' rest' _ hsplit hreads =>
      have hsame := (hreads rest').symm.trans (hsplit ▸ hread)
      cases hsame
    | @refuses front rest' _ hsplit hrefuses =>
      have hsame := (hrefuses rest').symm.trans (hsplit ▸ hread)
      cases hsame
      exact ⟨front, hsplit, hrefuses⟩
    | lacks hlacks =>
      cases hlacks.symm.trans hread
      exact absurd rfl hfault

/-- A tuple of a class whose one parameter is empty, and what comes behind it. -/
def emptyParameter : Bytes :=
  [0, 0x31, 0, 1, 0, 0, 0, 9, 83, 101, 116, 84, 121, 112, 101, 40, 41, 42]

/-- The same without the last bracket of the class. -/
def unclosedClass : Bytes :=
  [0, 0x31, 0, 1, 0, 0, 0, 8, 83, 101, 116, 84, 121, 112, 101, 40, 42]

theorem read_bounded_emptyParameter :
    let type := CqlType.tuple [.set (.custom "")]
    read 2 emptyParameter = .ok type [42] ∧ type.height ≤ 2 ∧ type.nodes ≤ 17 ∧
      (∀ more, read 2 (emptyParameter ++ more) = .ok type ([42] ++ more)) ∧
      read 2 unclosedClass = .error (.invalidClass "SetType(") [42] ∧
      ∃ front, unclosedClass = front ++ [42] ∧
        ∀ more, read 2 (front ++ more) = .error (.invalidClass "SetType(") more := by
  have hread : read 2 emptyParameter = .ok (.tuple [.set (.custom "")]) [42] := rfl
  have hrefused : read 2 unclosedClass = .error (.invalidClass "SetType(") [42] := rfl
  obtain ⟨front, hfront, hheight, hnodes, -, hmore⟩ :=
    (read_bounded 2 emptyParameter).1 _ [42] hread
  have hlength : front.length = 17 := by
    have hboth := congrArg List.length hfront
    rw [List.length_append] at hboth
    exact (Nat.succ.inj hboth).symm
  exact ⟨hread, hheight, hlength ▸ hnodes, hmore, hrefused,
    (read_bounded 2 unclosedClass).2 _ [42] hrefused (by decide)⟩

end Descriptor

end CqlClient
