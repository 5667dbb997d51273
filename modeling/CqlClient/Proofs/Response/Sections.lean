import CqlClient.Proofs.Response.Rows
import CqlClient.Response

/-!
# Responses behind sections

The flags of a header announce sections in front of the body, so that everything after them moves.
Proved here, for every opcode and whatever the body holds:

* `ResponseBody.ofBody_append`: what is read from an offset does not depend on what is before it;
* `Sections.reads_bytes`: sections are read back from what is written for them;
* `Response.ofEnvelope_onto`: a body behind sections is read, or refused, as it is without them, and
  a page of rows keeps its metadata and its cells.

The cells of a page are found by counting from the end of the body what is left to read. That this
stays behind the offset rests on no reader leaving more bytes than it was given
(`Metadata.consumes_read`).
-/

namespace CqlClient

open FrameReader (wire)
open Descriptor (IsShort)

/-! ## Nothing is put back -/

section Consumes

open Reader (Consumes consumes_exactly consumes_ofExcept consumes_pure)

variable {ε α β : Type}

/-- As `Consumes.bind`, where how much is consumed does not matter. -/
theorem Reader.Consumes.andThen {r : Reader ε α} {f : α → Reader ε β} (hr : Consumes 0 r)
    (hf : ∀ a, Consumes 0 (f a)) : Consumes 0 (r >>= f) := hr.bind hf

theorem consumes_throw (n : Nat) (e : ε) : Consumes n (throw e : Reader ε α) := by
  intro bytes rest a h
  cases h

theorem consumes_rest : Consumes 0 (Reader.rest : Reader ε Bytes) := by
  intro bytes rest front h
  cases h
  exact Nat.le_refl _

theorem consumes_mapM {r : β → Reader ε α} (h : ∀ b, Consumes 0 (r b)) (items : List β) :
    Consumes 0 (items.mapM r) := by
  induction items with
  | nil => exact consumes_pure []
  | cons item items ih =>
    rw [List.mapM_cons]
    exact (h item).andThen fun a => ih.andThen fun as => consumes_pure (a :: as)

theorem consumes_times {r : Reader ε α} (h : Consumes 0 r) (n : Nat) :
    Consumes 0 (Reader.times n r) := by
  have hitems := consumes_mapM (fun _ => h) (List.range n)
  rwa [← times_length, List.length_range] at hitems

theorem consumes_raw (n : Nat) : Consumes 0 (Wire.raw n) :=
  (consumes_exactly _ n).mono (Nat.zero_le n)

theorem consumes_uint16 : Consumes 0 Wire.uint16 :=
  (consumes_raw 2).andThen fun _ => consumes_pure _

theorem consumes_uint32 : Consumes 0 Wire.uint32 :=
  (consumes_raw 4).andThen fun _ => consumes_pure _

theorem consumes_optionalBytes : Consumes 0 Wire.optionalBytes := by
  refine ((consumes_raw 4).andThen fun _ => consumes_pure _).andThen fun length => ?_
  split
  · exact consumes_pure none
  · exact (consumes_raw _).andThen fun bytes => consumes_pure (some bytes)

theorem consumes_string : Consumes 0 Wire.string := by
  refine (consumes_uint16.andThen fun n => consumes_raw n.toNat).andThen fun bytes => ?_
  cases Utf8.decode bytes with
  | error fault => exact consumes_throw 0 _
  | ok text => exact consumes_pure text

end Consumes

namespace Descriptor

open Reader (Consumes consumes_ofExcept consumes_pure)

theorem consumes_readBody {readClass nested : TypeReader CqlType} (hclass : Consumes 0 readClass)
    (hnested : Consumes 0 nested) (code : UInt16) :
    Consumes 0 (readBody readClass nested code) := by
  have hname : Consumes 0 (Descriptor.wire Wire.string) := consumes_string.mapError _
  have hcount : Consumes 0 (Descriptor.wire Wire.uint16) := consumes_uint16.mapError _
  have hfield : Consumes 0 (readField nested) :=
    hname.andThen fun _ => hnested.andThen fun _ => consumes_pure _
  rw [readBody]
  cases TypeCode.ofWire? code with
  | none => exact consumes_throw 0 _
  | some code =>
    cases code with
    | custom => exact hclass
    | list => exact hnested.andThen fun _ => consumes_pure _
    | set => exact hnested.andThen fun _ => consumes_pure _
    | map => exact hnested.andThen fun _ => hnested.andThen fun _ => consumes_pure _
    | tuple =>
      exact hcount.andThen fun _ => (consumes_times hnested _).andThen fun _ => consumes_pure _
    | udt =>
      exact hname.andThen fun _ => hname.andThen fun _ => hcount.andThen fun _ =>
        (consumes_times hfield _).andThen fun _ => consumes_pure _
    | native type => exact consumes_pure _
    | varchar => exact consumes_pure _
    | vector => exact consumes_throw 0 _

theorem consumes_read (limit : Nat) : Consumes 0 (read limit) := by
  have hclass (room : Nat) : Consumes 0 (readClass limit room) :=
    (consumes_string.mapError _).andThen fun _ => consumes_ofExcept _
  have hread (room : Nat) : Consumes 0 (readWith (readClass limit) limit room) := by
    induction room with
    | zero => exact consumes_throw 0 _
    | succ room ih =>
      exact (consumes_uint16.mapError _).andThen fun code => consumes_readBody (hclass room) ih code
  exact hread (limit + 1)

end Descriptor

namespace Metadata

open Reader (Consumes consumes_pure)

theorem consumes_readColumns (limit count : Nat) (shared : Option (String × String)) :
    Consumes 0 (Columns.read limit count shared) := by
  have hname : Consumes 0 (wire Wire.string) := consumes_string.mapError _
  have htable : Consumes 0 (Columns.readTable shared) := by
    cases shared with
    | some table => exact consumes_pure table
    | none => exact hname.andThen fun _ => hname.andThen fun _ => consumes_pure _
  have hcolumn (index : Nat) : Consumes 0 (Columns.readColumn limit shared index) :=
    htable.andThen fun _ => hname.andThen fun _ =>
      ((Descriptor.consumes_read limit).mapError _).andThen fun _ => consumes_pure _
  rw [Columns.read_eq]
  refine consumes_rest.andThen fun bytes => ?_
  split
  · exact consumes_throw 0 _
  · exact consumes_mapM hcolumn _

theorem consumes_read (limit : Nat) : Consumes 0 (read limit) := by
  have hnumber : Consumes 0 (wire Wire.uint32) := consumes_uint32.mapError _
  have hname : Consumes 0 (wire Wire.string) := consumes_string.mapError _
  have hstate (flags : UInt32) : Consumes 0 (readState flags) := by
    rw [readState]
    split
    · exact consumes_optionalBytes.mapError _
    · exact consumes_pure none
  have hshared (flags : UInt32) : Consumes 0 (readShared flags) := by
    rw [readShared]
    split
    · exact hname.andThen fun _ => hname.andThen fun _ => consumes_pure _
    · exact consumes_pure none
  refine hnumber.andThen fun flags => hnumber.andThen fun count =>
    (hstate flags).andThen fun state => ?_
  split
  · exact consumes_pure _
  · exact (hshared flags).andThen fun shared =>
      (consumes_readColumns limit count.toNat shared).andThen fun _ => consumes_pure _

end Metadata

/-! ## The offset of a body -/

section Offset

variable {ε α β : Type}

/-- It is enough that readers go on alike from what the first of them has left. -/
theorem outcome_congr {r : Reader ε α} {f g : α → Reader ε β} {bytes : Bytes}
    (h : ∀ a rest, r bytes = .ok a rest → (f a).outcome rest = (g a).outcome rest) :
    (r >>= f).outcome bytes = (r >>= g).outcome bytes := by
  cases hr : r bytes with
  | error fault left => simp only [Reader.outcome, bind_of_error hr]
  | ok a rest =>
    have hnext := h a rest hr
    simp only [Reader.outcome, bind_of_ok hr] at hnext ⊢
    exact hnext

end Offset

/-- The cells of a page are as far from the end, whatever is in front of the body. -/
theorem Rows.ofBody_append (limit : Nat) (front body : Bytes) (offset : Nat) :
    ofBody limit (front ++ body) (front.length + offset) = ofBody limit body offset := by
  rw [ofBody, ofBody, List.drop_length_add_append]
  refine outcome_congr fun metadata left hmetadata => outcome_congr fun count rest hcount => ?_
  have hleft := Metadata.consumes_read limit _ _ _ hmetadata
  have hrest := (consumes_uint32.mapError FrameFault.wire) _ _ _ hcount
  have hcells : (front ++ body).drop ((front ++ body).length - rest.length) =
      body.drop (body.length - rest.length) := by
    rw [List.length_drop] at hleft
    rw [List.length_append, Nat.add_sub_assoc (by omega), List.drop_length_add_append]
  exact congrArg (fun content => Except.ok (Rows.mk metadata count.toNat content)) hcells

theorem Result.ofBody_append (extensions : Extensions) (limit : Nat) (front body : Bytes)
    (offset : Nat) :
    ofBody extensions limit (front ++ body) (front.length + offset) =
      ofBody extensions limit body offset := by
  rw [ofBody, ofBody, Nat.add_assoc, Rows.ofBody_append, List.drop_length_add_append]

theorem ResponseBody.ofBody_append (extensions : Extensions) (limit : Nat) (front body : Bytes)
    (offset : Nat) (opcode : Opcode) :
    ofBody extensions limit (front ++ body) (front.length + offset) opcode =
      ofBody extensions limit body offset opcode := by
  cases opcode <;> simp only [ofBody, List.drop_length_add_append, Result.ofBody_append]

/-! ## Sections -/

namespace Response

/-- A list of texts behind its count. -/
def stringsBytes (texts : List String) : Bytes :=
  Bytes.ofNat 2 texts.length ++ texts.flatMap Wire.writeString

/-- Entries behind their count, each a key and a byte string. -/
def entriesBytes (entries : List (String × Bytes)) : Bytes :=
  Bytes.ofNat 2 entries.length ++
    entries.flatMap fun entry => Wire.writeString entry.1 ++ Wire.writeBytes entry.2

theorem reads_announced {α : Type} {o : Option α} {part : Wire.WireReader α} {write : α → Bytes}
    (h : ∀ a, o = some a → Reads part (write a) a) :
    Reads (announced o.isSome part) (o.elim [] write) o := by
  cases o with
  | none => exact reads_pure none
  | some a => exact (FrameReader.reads_wire (h a rfl)).map some

namespace Sections

/-- The flags of a header behind which the sections come. -/
def flags (sections : Sections) (others : Flags) : Flags :=
  { others with
    tracing := sections.tracingId.isSome
    customPayload := sections.customPayload.isSome
    warnings := sections.warnings.isSome }

def bytes (sections : Sections) : Bytes :=
  sections.tracingId.elim [] id ++
    (sections.warnings.elim [] stringsBytes ++ sections.customPayload.elim [] entriesBytes)

/-- A frame with the sections put in front of its body. -/
def onto (sections : Sections) (e : Envelope) : Envelope :=
  { e with flags := sections.flags e.flags, body := sections.bytes ++ e.body }

/-- All lengths and counts fit. -/
structure Fits (sections : Sections) : Prop where
  tracingId : ∀ id, sections.tracingId = some id → id.length = 16
  warnings : ∀ texts, sections.warnings = some texts →
    texts.length ≤ Wire.maxUInt16 ∧ ∀ text ∈ texts, IsShort text
  customPayload : ∀ entries, sections.customPayload = some entries →
    entries.length ≤ Wire.maxUInt16 ∧
      ∀ entry ∈ entries, IsShort entry.1 ∧ entry.2.length ≤ Wire.maxInt32

theorem reads_bytes {sections : Sections} (h : sections.Fits) (others : Flags) :
    Reads (read (sections.flags others)) sections.bytes sections := by
  refine (reads_announced fun id hid => reads_raw (h.tracingId id hid)).bind ?_
  refine (reads_announced fun texts htexts => ?_).bind
    ((reads_announced fun entries hentries => ?_).map _)
  · obtain ⟨hcount, heach⟩ := h.warnings texts htexts
    exact reads_counted hcount fun text hmem => (needsAll_string (heach text hmem)).reads
  · obtain ⟨hcount, heach⟩ := h.customPayload entries hentries
    refine reads_counted hcount fun entry hmem => ?_
    obtain ⟨hkey, hvalue⟩ := heach entry hmem
    exact (needsAll_string hkey).reads.bind ((SentParameters.reads_wireBytes hvalue).map _)

end Sections

/-! ## Responses -/

/-- The header announces no section. -/
def IsBare (flags : Flags) : Prop :=
  flags.tracing = false ∧ flags.customPayload = false ∧ flags.warnings = false

theorem ofEnvelope_of_reads (extensions : Extensions) (limit : Nat) {e : Envelope}
    {sections : Sections} {front body : Bytes} (hbody : e.body = front ++ body)
    (h : Reads (Sections.read e.flags) front sections) :
    ofEnvelope extensions limit e =
      if e.flags.compression then .error .compressed
      else (ResponseBody.ofBody extensions limit body 0 e.opcode).map sections.respond := by
  have hfront : Reader.outcome (do
      let sections ← Sections.read e.flags
      return (sections, e.body.length - (← Reader.rest).length)) e.body =
        .ok (sections, front.length) := by
    rw [hbody, outcome_bind h, List.length_append]
    show Except.ok (sections, front.length + body.length - body.length) = _
    rw [Nat.add_sub_cancel]
  simp only [ofEnvelope, hfront]
  cases e.flags.compression with
  | true => rfl
  | false =>
    have hmoved := ResponseBody.ofBody_append extensions limit front body 0 e.opcode
    rw [Nat.add_zero, ← hbody] at hmoved
    show (do return sections.respond (← ResponseBody.ofBody _ _ _ _ _)) = _
    rw [hmoved]
    cases ResponseBody.ofBody extensions limit body 0 e.opcode <;> rfl

/-- Where no key occurs twice, every entry counts. -/
theorem lastEntries_of_nodup {α : Type} {entries : List (String × α)}
    (h : (entries.map Prod.fst).Nodup) : lastEntries entries = entries := by
  induction entries with
  | nil => rfl
  | cons entry entries ih =>
    obtain ⟨key, value⟩ := entry
    rw [List.map_cons, List.nodup_cons] at h
    have hlater : (entries.any (·.1 == key)) = false := by
      rw [List.any_eq_false]
      intro later hmem
      rw [beq_iff_eq]
      exact fun heq => h.1 (List.mem_map.mpr ⟨later, hmem, heq⟩)
    rw [lastEntries, hlater, if_neg Bool.false_ne_true, ih h.2]

/-- Sections in front of a body come with the response and change neither what is read from the body
nor how it fails. A page of rows behind any of them keeps its paging state, its columns or their
absence, the number of its rows and exactly the bytes of its cells. -/
theorem ofEnvelope_onto (extensions : Extensions) (limit : Nat) {sections : Sections}
    (h : sections.Fits) :
    (∀ e : Envelope, IsBare e.flags →
      ofEnvelope extensions limit (sections.onto e) =
        (ofEnvelope extensions limit e).map fun response =>
          { response with
            tracingId := sections.tracingId
            warnings := sections.warnings.getD []
            customPayload := lastEntries (sections.customPayload.getD []) }) ∧
    (∀ (version : UInt8) (flags : Flags) (stream : Int16) (shared : Option (String × String))
        (m : Metadata) (rows : List (List (Option Bytes))),
      flags.compression = false → m.Fits limit shared → rows.length < 2 ^ 32 →
      ofEnvelope extensions limit (sections.onto ⟨version, flags, stream, .result,
          Bytes.ofUInt32 2 ++ Rows.bytesOf shared m rows⟩) =
        .ok {
          tracingId := sections.tracingId
          warnings := sections.warnings.getD []
          customPayload := lastEntries (sections.customPayload.getD [])
          body := .result (.rows ⟨m, rows.length, Rows.cellsBytes rows⟩) }) ∧
    ∀ entries, sections.customPayload = some entries → (entries.map Prod.fst).Nodup →
      lastEntries entries = entries := by
  refine ⟨?moved, ?rows, fun entries _ => lastEntries_of_nodup⟩
  case moved =>
    intro e hbare
    have hplain : Reads (Sections.read e.flags) [] ⟨none, none, none⟩ := by
      rw [Sections.read, hbare.1, hbare.2.1, hbare.2.2]
      exact reads_pure _
    rw [ofEnvelope_of_reads extensions limit rfl (Sections.reads_bytes h e.flags),
      ofEnvelope_of_reads extensions limit (List.nil_append _).symm hplain]
    show (if e.flags.compression then _ else _) = _
    cases e.flags.compression with
    | true => rfl
    | false =>
      show Except.map sections.respond (ResponseBody.ofBody extensions limit e.body 0 e.opcode) = _
      cases ResponseBody.ofBody extensions limit e.body 0 e.opcode <;> rfl
  case rows =>
    intro version flags stream shared m rows hflags hfits hcount
    have hpage : Result.ofBody extensions limit
        (Bytes.ofUInt32 2 ++ Rows.bytesOf shared m rows) 0 =
          .ok (.rows ⟨m, rows.length, Rows.cellsBytes rows⟩) := by
      have hrows := Rows.ofBody_bytesOf hfits hcount (Bytes.ofUInt32 2)
      rw [Result.ofBody, List.drop_zero, outcome_bind (FrameReader.reads_wire (reads_uint32 2))]
      show Reader.outcome (do
        return Result.rows (← Reader.ofExcept (Rows.ofBody limit _ (Bytes.ofUInt32 2).length)))
          _ = _
      rw [hrows]
      rfl
    rw [ofEnvelope_of_reads extensions limit rfl (Sections.reads_bytes h flags)]
    show (if flags.compression then _ else Except.map sections.respond (do
      return .result (← Result.ofBody extensions limit _ 0))) = _
    rw [hflags, hpage]
    rfl

/-- Every kind of section. -/
def everySection : Sections :=
  ⟨some (List.replicate 16 7), some ["careful"], some [("key", [0xFF])]⟩

/-- Two columns of one table, with another page to come. -/
def twoColumns : Metadata :=
  ⟨2, some [0xCA, 0xFE],
    some [⟨"ks", "tb", "k", 0, .native .int⟩, ⟨"ks", "tb", "v", 1, .list (.native .text)⟩]⟩

theorem ofEnvelope_onto_everySection :
    ofEnvelope .none 1 (everySection.onto ⟨0x84, Flags.none, 3, .result, Bytes.ofUInt32 2 ++
        Rows.bytesOf (some ("ks", "tb")) twoColumns [[some [0, 0, 0, 1], none]]⟩) =
      .ok {
        tracingId := some (List.replicate 16 7)
        warnings := ["careful"]
        customPayload := [("key", [0xFF])]
        body := .result (.rows ⟨twoColumns, 1,
          [0, 0, 0, 4, 0, 0, 0, 1, 0xFF, 0xFF, 0xFF, 0xFF]⟩) } := by
  have hsections : everySection.Fits := by
    refine ⟨?_, ?_, ?_⟩
    · rintro _ ⟨⟩
      rfl
    · rintro _ ⟨⟩
      decide
    · rintro _ ⟨⟩
      decide
  have hcolumn {type : CqlType} {name : String} {index : Nat} (hname : IsShort name)
      (htype : type.Writable) (hheight : type.height ≤ 1) :
      Column.Fits 1 (some ("ks", "tb")) ⟨"ks", "tb", name, index, type⟩ := by
    have hkeyspace : IsShort "ks" := by decide
    have htable : IsShort "tb" := by decide
    refine ⟨hkeyspace, htable, hname, htype, hheight, ?_⟩
    rintro _ ⟨⟩
    rfl
  have hmetadata : twoColumns.Fits 1 (some ("ks", "tb")) := by
    refine ⟨?_, ?_, ?_, ?_, ?_⟩
    · rintro _ ⟨⟩
      decide
    · rintro _ ⟨⟩
      decide
    · rintro _ ⟨⟩
      rfl
    · rintro _ ⟨⟩
      rfl
    · rintro _ ⟨⟩
      simp only [List.forall_mem_cons]
      exact ⟨hcolumn (by decide) (.native .int) (by decide),
        hcolumn (by decide) (.list (.native .text)) (by decide), by simp⟩
  exact (ofEnvelope_onto .none 1 hsections).2.1 0x84 Flags.none 3 _ _ _ rfl hmetadata (by decide)

end Response

end CqlClient
