import CqlClient.Proofs.Frame.Envelope
import CqlClient.Proofs.Fronts

/-!
# Frames in a row

A connection delivers frames without anything between them, cut anywhere. Proved here:

* `Header.readBody_eq`: reading short results on a path of their own changes nothing;
* `Envelope.needsAll_read`: a frame is read from its bytes, and from nothing less than all of them;
* `Envelope.read_complete_iff`: what is read without a rest is what the bytes hold completely;
* `Envelope.accepts_read`, `Envelope.next_malformed_append`: what is read of the bytes that have
  come does not depend on what comes later;
* `Envelope.Framed`: envelopes that stand one behind the other;
* `Envelope.readLoop_of_frames`: the loop over a stream of bytes calls back with the frames that are
  complete, in order, and ends at the end of the input.
-/

namespace CqlClient

/-! ## What follows -/

/-- A reader whose result depends on nothing behind the bytes that it consumes. -/
theorem accepts_bind_reads {ε α β : Type} {r : Reader ε α} {f : α → Reader ε β}
    (hr : Accepts r (Reads r)) (hf : ∀ a, Accepts (f a) (Reads (f a))) :
    Accepts (r >>= f) (Reads (r >>= f)) := by
  refine hr.bind fun front a ha => ?_
  intro bytes b rest hb
  obtain ⟨back, hsplit, hback⟩ := hf a bytes b rest hb
  exact ⟨back, hsplit, ha.bind hback⟩

theorem accepts_wire_raw_reads (n : Nat) :
    Accepts (FrameReader.wire (Wire.raw n)) (Reads (FrameReader.wire (Wire.raw n))) := by
  refine Accepts.mapError _ ?_
  intro bytes front rest hread
  obtain ⟨front, rfl, rfl, hlen⟩ := accepts_raw n _ _ _ hread
  exact ⟨front, rfl, (reads_raw hlen).mapError _⟩

theorem accepts_ofExcept_reads {ε α : Type} (result : Except ε α) :
    Accepts (Reader.ofExcept result) (Reads (Reader.ofExcept result)) := by
  intro bytes a rest hread
  obtain ⟨hresult, rfl⟩ := Reader.ofExcept_eq_ok.mp hread
  exact ⟨[], rfl, reads_ofExcept hresult⟩

/-- A fault that more bytes cannot help stays the same with them. -/
def Firm {α : Type} (r : FrameReader α) : Prop :=
  ∀ bytes fault left, r bytes = .error fault left → fault.isEndOfInput = false →
    ∀ more, ∃ left', r (bytes ++ more) = .error fault left'

theorem firm_wire_raw (n : Nat) : Firm (FrameReader.wire (Wire.raw n)) := by
  intro bytes fault left hread hfault
  change EStateM.adaptExcept FrameFault.wire (Wire.raw n) bytes = _ at hread
  rw [EStateM.adaptExcept] at hread
  cases hraw : Wire.raw n bytes with
  | ok front rest =>
    rw [hraw] at hread
    cases hread
  | error e rest =>
    rw [hraw, raw_eq_error hraw] at hread
    cases hread
    cases hfault

theorem firm_ofExcept {α : Type} (result : Except FrameFault α) :
    Firm (Reader.ofExcept result) := by
  intro bytes fault left hread _ more
  cases result with
  | ok a => cases hread
  | error e =>
    cases hread
    exact ⟨_, rfl⟩

theorem Firm.bind {α β : Type} {r : FrameReader α} {f : α → FrameReader β} (hr : Firm r)
    (hreads : Accepts r (Reads r)) (hf : ∀ a, Firm (f a)) : Firm (r >>= f) := by
  intro bytes fault left hread hfault more
  cases hfirst : r bytes with
  | error e rest =>
    cases (bind_of_error hfirst).symm.trans hread
    obtain ⟨left', hleft⟩ := hr _ _ _ hfirst hfault more
    exact ⟨left', bind_of_error hleft⟩
  | ok a rest =>
    rw [bind_of_ok hfirst] at hread
    obtain ⟨front, rfl, hfront⟩ := hreads _ _ _ hfirst
    obtain ⟨left', hleft⟩ := hf a _ _ _ hread hfault more
    refine ⟨left', ?_⟩
    rw [List.append_assoc, bind_of_ok (hfront _), hleft]

namespace Header

/-- A void body is the one that is shared, and every other body is kept as it is. -/
theorem readBody_eq (header : Header) : header.readBody = header.readWholeBody := by
  have hshared (body : Bytes) : (if body = voidBody then voidBody else body) = body :=
    ite_eq_right_iff.mpr Eq.symm
  rw [readBody, readWholeBody]
  split
  · rename_i h
    simp only [hshared, bind_pure, h.2]
  · rfl

/-- Less than a header is not looked at. -/
theorem needsAll_read {header : Header} (h : header.length.toNat ≤ maxBodyLength) :
    NeedsAll read header.bytes header (.wire .endOfInput) := by
  refine ⟨reads_bytes h, fun part hpart hne => ?_⟩
  have hfront := (needsAll_raw header.length_bytes).mapError FrameFault.wire
  obtain ⟨left, hleft⟩ := hfront.cut part hpart hne
  exact ⟨left, bind_of_error hleft⟩

theorem accepts_read : Accepts read (Reads read) :=
  accepts_bind_reads (accepts_wire_raw_reads _) fun _ => accepts_ofExcept_reads _

end Header

namespace Envelope

/-- The body is one that a header can announce. -/
def Fits (e : Envelope) : Prop := e.body.length ≤ maxBodyLength

instance (e : Envelope) : Decidable e.Fits := inferInstanceAs (Decidable (_ ≤ _))

/-! ## One frame -/

theorem Fits.length_header {e : Envelope} (h : e.Fits) :
    e.header.length.toNat = e.body.length := by
  rw [Fits, maxBodyLength] at h
  rw [header, UInt32.toNat_ofNat', Nat.mod_eq_of_lt (by omega)]

theorem needsAll_read {e : Envelope} (h : e.Fits) :
    NeedsAll read e.bytes e (.wire .endOfInput) := by
  refine (Header.needsAll_read (h.length_header ▸ h)).bind (NeedsAll.bind_nil (a := e.body) ?_ ?_)
  · rw [Header.readBody_eq]
    exact (needsAll_raw h.length_header.symm).mapError FrameFault.wire
  · rw [ofParts_of_length h.length_header.symm]
    exact needsAll_pure e _

theorem ofParts_eq_ok {header : Header} {body : Bytes} {e : Envelope} :
    ofParts header body = .ok e ↔ body.length = header.length.toNat ∧ header.envelope body = e := by
  rw [ofParts]
  split
  · rename_i h
    simp [h]
  · rename_i h
    simp [not_not.mp h]

/-- A frame read without a rest has consumed its header and then, as its body, all that was left. -/
theorem read_complete_iff {bytes : Bytes} {e : Envelope} :
    read bytes = .ok e [] ↔ ofBytes bytes = .ok e := by
  have hread : read bytes = .ok e [] ↔
      ∃ header body, Header.read bytes = .ok header body ∧ ofParts header body = .ok e := by
    constructor
    · intro h
      obtain ⟨header, left, hheader, h⟩ := Reader.bind_eq_ok.mp h
      obtain ⟨body, rest, hbody, h⟩ := Reader.bind_eq_ok.mp h
      obtain ⟨hparts, rfl⟩ := Reader.ofExcept_eq_ok.mp h
      rw [Header.readBody_eq] at hbody
      obtain ⟨_, rfl, rfl, -⟩ := accepts_raw _ _ _ _ (Reader.mapError_eq_ok.mp hbody)
      exact ⟨header, _, hheader, by rwa [List.append_nil]⟩
    · rintro ⟨header, body, hheader, hparts⟩
      have hbody : header.readBody body = .ok body [] := by
        have h := (reads_raw (ofParts_eq_ok.mp hparts).1).mapError FrameFault.wire
        rw [Header.readBody_eq, Header.readWholeBody, FrameReader.wire]
        simpa using h []
      exact Reader.bind_eq_ok.mpr ⟨header, body, hheader,
        Reader.bind_eq_ok.mpr ⟨body, [], hbody, Reader.ofExcept_eq_ok.mpr ⟨hparts, rfl⟩⟩⟩
  rw [hread, ofBytes]
  cases Header.read bytes with
  | error fault left => simp
  | ok header body => simp

/-! ## Envelopes in a row -/

/-- An envelope that is read has a front of its own, and is read whatever follows it. -/
theorem accepts_read : Accepts read (Reads read) := by
  refine accepts_bind_reads Header.accepts_read fun header => accepts_bind_reads ?_ fun _ =>
    accepts_ofExcept_reads _
  rw [Header.readBody_eq]
  exact accepts_wire_raw_reads _

theorem next_eq_frame {bytes rest : Bytes} {e : Envelope} :
    next bytes = .frame e rest ↔ read bytes = .ok e rest := by
  rw [next]
  cases read bytes with
  | ok e rest => simp
  | error fault rest => by_cases h : fault.isEndOfInput <;> simp [h]

theorem firm_read : Firm read := by
  refine Firm.bind ?_ Header.accepts_read fun header => Firm.bind ?_ ?_ fun _ => firm_ofExcept _
  · exact (firm_wire_raw _).bind (accepts_wire_raw_reads _) fun _ => firm_ofExcept _
  · rw [Header.readBody_eq]
    exact firm_wire_raw _
  · rw [Header.readBody_eq]
    exact accepts_wire_raw_reads _

theorem next_malformed_append {bytes : Bytes} {fault : FrameFault}
    (h : next bytes = .malformed fault) (more : Bytes) :
    next (bytes ++ more) = .malformed fault := by
  rw [next] at h
  split at h
  · cases h
  next e left hread =>
    split at h
    · cases h
    next hfault =>
      cases h
      obtain ⟨left', hread'⟩ := firm_read _ _ _ hread (by simpa using hfault) more
      simp only [next, hread', hfault]
      rfl

/-- The envelopes stand at the beginning of the bytes, one behind the other, before the rest. -/
inductive Framed : Bytes → List Envelope → Bytes → Prop
  | nil (bytes : Bytes) : Framed bytes [] bytes
  | cons {bytes middle rest : Bytes} {e : Envelope} {es : List Envelope}
    (head : read bytes = .ok e middle) (tail : Framed middle es rest) : Framed bytes (e :: es) rest

namespace Framed

variable {bytes middle rest : Bytes} {es es' : List Envelope} {e : Envelope}

theorem trans (h : Framed bytes es middle) (h' : Framed middle es' rest) :
    Framed bytes (es ++ es') rest := by
  induction h with
  | nil => exact h'
  | cons head _ ih => exact .cons head (ih h')

theorem one (h : read bytes = .ok e rest) : Framed bytes [e] rest := .cons h (.nil rest)

theorem append (h : Framed bytes es rest) (more : Bytes) :
    Framed (bytes ++ more) es (rest ++ more) := by
  induction h with
  | nil => exact .nil _
  | @cons bytes middle _ e _ head _ ih =>
    obtain ⟨front, rfl, hfront⟩ := accepts_read _ _ _ head
    refine .cons ?_ ih
    rw [List.append_assoc]
    exact hfront _

end Framed

/-! ## The loop -/

section Loop

variable {σ ε : Type} (callback : Envelope → EStateM ε σ Unit)

theorem readLoop_of_read {bytes rest : Bytes} {e : Envelope} (h : read bytes = .ok e rest) :
    readLoop callback bytes = (do
      (callback e).adaptExcept .callback
      readLoop callback rest) := by
  rw [readLoop]
  split
  · rename_i hread
    rw [h] at hread
    cases hread
    rfl
  · rename_i hread
    rw [h] at hread
    cases hread

theorem readLoop_of_error {bytes left : Bytes} {fault : FrameFault}
    (h : read bytes = .error fault left) : readLoop callback bytes = throw (.frame fault) := by
  rw [readLoop]
  split
  · rename_i hread
    rw [h] at hread
    cases hread
  · rename_i hread
    rw [h] at hread
    cases hread
    rfl

/-- The loop over some frames and bytes that are no frame. -/
theorem readLoop_frames {es : List Envelope} (hfits : ∀ e ∈ es, e.Fits) {part left : Bytes}
    {fault : FrameFault} (hpart : read part = .error fault left) :
    readLoop callback (es.flatMap bytes ++ part) = (do
      (forM es callback).adaptExcept .callback
      throw (.frame fault)) := by
  induction es with
  | nil => exact readLoop_of_error callback hpart
  | cons e es ih =>
    rw [List.forall_mem_cons] at hfits
    have hread := (needsAll_read hfits.1).reads (es.flatMap bytes ++ part)
    rw [List.flatMap_cons, List.append_assoc, readLoop_of_read callback hread, ih hfits.2,
      List.forM_cons, adaptExcept_bind, bind_assoc]

end Loop

theorem forM_keep (es done : List Envelope) :
    (forM es keep) done = .ok () (es.reverse ++ done) := by
  induction es generalizing done with
  | nil => rfl
  | cons e es ih =>
    rw [List.forM_cons, List.reverse_cons, List.append_assoc]
    exact ih (e :: done)

/-- Where the bytes end within a frame, the loop has called back with each frame before it, in order
and with its body, and ends because the input does. Whether a body comes by the path of short
results makes no difference, and neither does whether a complete frame is read or taken apart. -/
theorem readLoop_of_frames {es : List Envelope} {last : Envelope} {part : Bytes}
    (hes : ∀ e ∈ es, e.Fits) (hlast : last.Fits) (hpart : part <+: last.bytes)
    (hcut : part ≠ last.bytes) :
    readAll (es.flatMap bytes ++ part) = (es, .wire .endOfInput) ∧
      (∀ (σ ε : Type) (callback : Envelope → EStateM ε σ Unit),
        readLoop callback (es.flatMap bytes ++ part) = (do
          (forM es callback).adaptExcept .callback
          throw (.frame (.wire .endOfInput)))) ∧
      (∀ header : Header, header.readBody = header.readWholeBody) ∧
      (read last.bytes = .ok last [] ∧ ofBytes last.bytes = .ok last) ∧
      ∀ (bytes : Bytes) (e : Envelope), read bytes = .ok e [] ↔ ofBytes bytes = .ok e := by
  obtain ⟨left, hread⟩ := (needsAll_read hlast).cut part hpart hcut
  have hcomplete : read last.bytes = .ok last [] := by
    simpa using (needsAll_read hlast).reads []
  refine ⟨?_, fun σ ε callback => readLoop_frames callback hes hread, Header.readBody_eq,
    ⟨hcomplete, read_complete_iff.mp hcomplete⟩, fun _ _ => read_complete_iff⟩
  have hkept : (forM es keep).adaptExcept LoopFault.callback [] = .ok () es.reverse := by
    rw [EStateM.adaptExcept, forM_keep, List.append_nil]
  have hloop : readLoop keep (es.flatMap bytes ++ part) [] =
      .error (.frame (.wire .endOfInput)) es.reverse := by
    rw [readLoop_frames keep hes hread]
    show EStateM.bind _ _ [] = _
    rw [EStateM.bind, hkept]
    rfl
  rw [readAll, hloop]
  exact congrArg (·, _) (List.reverse_reverse es)

/-- A void result, a result of four bytes that is not void, and a third frame cut in its body. -/
theorem readLoop_of_short_results :
    let void : Envelope := ⟨0x84, Flags.none, 1, .result, Header.voidBody⟩
    let other : Envelope := ⟨0x84, Flags.none, 2, .result, [0, 0, 0, 2]⟩
    let last : Envelope := ⟨0x84, Flags.none, -1, .event, [7, 8, 9]⟩
    readAll ([void, other].flatMap bytes ++ last.bytes.take 11) =
      ([void, other], .wire .endOfInput) := by
  intro void other last
  have hlast : last.Fits := by decide
  exact (readLoop_of_frames (by decide) hlast (List.take_prefix 11 _) (by decide)).1

end Envelope

end CqlClient
