import CqlClient.Frame.Envelope
import CqlClient.Proofs.Fronts

/-!
# Frames read back

* `Header.reads_bytes`: a header is read from the nine bytes that stand for it;
* `Envelope.ofBytes_append`: bytes that are a header and a body of the announced length are the
  frame of the two.
-/

namespace CqlClient

theorem FrameReader.reads_wire {α : Type} {r : Wire.WireReader α} {front : Bytes} {a : α}
    (h : Reads r front a) : Reads (FrameReader.wire r) front a :=
  h.mapError FrameFault.wire

namespace Header

theorem length_bytes (header : Header) : header.bytes.length = size := by
  simp [bytes, Bytes.ofInt16, Bytes.ofUInt32, Bytes.length_ofNat, size]

/-- A header that announces a body of a frame is read back, whatever follows it. -/
theorem reads_bytes {header : Header} (h : header.length.toNat ≤ maxBodyLength) :
    Reads read header.bytes header := by
  have hpieces : header.bytes = [header.version] ++ ([header.flags.bits] ++
      (Bytes.ofInt16 header.stream ++ ([header.opcode.code] ++ Bytes.ofUInt32 header.length))) := by
    simp [bytes]
  have hlength : ¬ header.length.toNat > maxBodyLength := by omega
  refine (FrameReader.reads_wire (reads_raw header.length_bytes)).bind_nil
    (reads_ofExcept (Reads.outcome ?_))
  rw [hpieces]
  refine (FrameReader.reads_wire (reads_uint8 _)).bind ?_
  refine (FrameReader.reads_wire (reads_uint8 _)).bind ?_
  refine (FrameReader.reads_wire (reads_int16 _)).bind ?_
  refine (FrameReader.reads_wire (reads_uint8 _)).bind ?_
  simp only [Opcode.ofCode?_code]
  refine (FrameReader.reads_wire (reads_uint32 _)).bind_nil ?_
  rw [if_neg hlength, Flags.ofBits_bits]
  exact reads_pure header

end Header

namespace Envelope

theorem ofParts_of_length {header : Header} {body : Bytes}
    (h : body.length = header.length.toNat) : ofParts header body = .ok (header.envelope body) := by
  rw [ofParts, if_neg (not_not_intro h)]

theorem ofBytes_append {header : Header} {body : Bytes} (hbody : body.length = header.length.toNat)
    (h : header.length.toNat ≤ maxBodyLength) :
    ofBytes (header.bytes ++ body) = .ok (header.envelope body) := by
  simp only [ofBytes, Header.reads_bytes h body, ofParts_of_length hbody]

end Envelope

end CqlClient
