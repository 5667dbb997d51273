import CqlClient.CqlType.ClassName
import CqlClient.Fault
import CqlClient.Frame.Opcode

/-!
What can be wrong with frames and bodies that the other side sends.
-/

namespace CqlClient

inductive FrameFault where
  | wire (fault : WireFault)
  | descriptor (fault : DescriptorFault)
  | unknownOpcode (code : UInt8)
  | tooBig (length : Nat)
  | lengthMismatch (found announced : Nat)
  | compressed
  | unexpectedOpcode (opcode : Opcode)
  | resultKind (kind : UInt32)
  | rateLimitOperation (code : UInt8)
  | tooManyColumns (count bytes : Nat)
  | schemaChangeKind
  | streamMismatch
  /-- A well-formed response that answers nothing that was asked. -/
  | unexpectedResponse (response : String)
  deriving DecidableEq

def FrameFault.message : FrameFault → String
  | wire fault => fault.message
  | descriptor fault => fault.message
  | unknownOpcode code => "Invalid opcode " ++ Text.hex 2 code.toNat
  | tooBig length => "Envelope too big (" ++ toString length ++ " bytes)"
  | lengthMismatch found announced =>
    "Envelope body is " ++ toString found ++ " bytes, header announced " ++ toString announced
  | compressed => "Compressed envelope, but no compression was negotiated"
  | unexpectedOpcode opcode => "Unexpected opcode " ++ opcode.name
  | resultKind kind => "Invalid result kind " ++ toString kind.toNat
  | rateLimitOperation code => "Invalid rate limit operation " ++ toString code.toNat
  | tooManyColumns count bytes =>
    toString count ++ " columns announced in " ++ toString bytes ++ " bytes"
  | schemaChangeKind => "Invalid schema change type"
  | streamMismatch => "stream mismatch"
  | unexpectedResponse response => "invalid response: " ++ response

def FrameFault.label : FrameFault → String
  | wire fault => fault.label
  | descriptor fault => fault.label
  | _ => "Io.InvalidData"

instance : Fault FrameFault := ⟨FrameFault.label, FrameFault.message⟩

/-- Whether more bytes could have helped. -/
def FrameFault.isEndOfInput : FrameFault → Bool
  | wire .endOfInput => true
  | _ => false

abbrev FrameReader := Reader FrameFault

def FrameReader.wire {α : Type} (r : Wire.WireReader α) : FrameReader α := r.mapError .wire

end CqlClient
