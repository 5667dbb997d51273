import CqlClient.Frame.Envelope
import CqlClient.Response.Result
import CqlClient.Response.ServerError
import CqlClient.Value

/-!
Responses: what the flags of the header announce comes first, then what the opcode calls for.
-/

namespace CqlClient

inductive ResponseBody where
  | error (e : ServerError)
  | ready
  | result (r : Result)
  | authenticate (authenticator : String)
  | supported (s : Supported)

structure Response where
  tracingId : Option Bytes
  warnings : List String
  /-- Entries by key; no key occurs twice. -/
  customPayload : List (String × Bytes)
  body : ResponseBody

/-- An error of the server with all that came with it. -/
structure DatabaseError where
  tracingId : Option Bytes
  warnings : List String
  customPayload : List (String × Bytes)
  error : ServerError

namespace ResponseBody

/-- Reads what an opcode calls for, from an offset of the body of a frame. -/
def ofBody (extensions : Extensions) (limit : Nat) (body : Bytes) (offset : Nat) :
    Opcode → Except FrameFault ResponseBody
  | .error => return .error (← (ServerError.read extensions).outcome (body.drop offset))
  | .ready => return .ready
  | .result => return .result (← Result.ofBody extensions limit body offset)
  | .authenticate =>
    return .authenticate (← (FrameReader.wire Wire.string).outcome (body.drop offset))
  | .supported =>
    return .supported (← (FrameReader.wire Supported.read).outcome (body.drop offset))
  | opcode => throw (.unexpectedOpcode opcode)

/-- What a body is called in messages. -/
def name : ResponseBody → String
  | error _ => "Error"
  | ready => "Ready"
  | result _ => "Result"
  | authenticate _ => "Authenticate"
  | supported _ => "Supported"

end ResponseBody

namespace Response

open FrameReader (wire)

/-- Reads a part that a flag announces. -/
def announced {α : Type} (flag : Bool) (part : Wire.WireReader α) : FrameReader (Option α) :=
  if flag then some <$> wire part else pure none

/-- What the flags of a header announce in front of a body. -/
structure Sections where
  tracingId : Option Bytes
  warnings : Option (List String)
  /-- The entries as they come; a key may occur twice. -/
  customPayload : Option (List (String × Bytes))

def Sections.read (flags : Flags) : FrameReader Sections := do
  let tracingId ← announced flags.tracing (Wire.raw 16)
  let warnings ← announced flags.warnings Wire.stringList
  let customPayload ← announced flags.customPayload Wire.bytesMap
  return ⟨tracingId, warnings, customPayload⟩

/-- A body together with what came in front of it. -/
def Sections.respond (sections : Sections) (body : ResponseBody) : Response :=
  ⟨sections.tracingId, sections.warnings.getD [], lastEntries (sections.customPayload.getD []),
    body⟩

def ofEnvelope (extensions : Extensions) (limit : Nat) (e : Envelope) :
    Except FrameFault Response := do
  if e.flags.compression then throw .compressed
  let front : FrameReader (Sections × Nat) := do
    let sections ← Sections.read e.flags
    return (sections, e.body.length - (← Reader.rest).length)
  let (sections, offset) ← front.outcome e.body
  return sections.respond (← ResponseBody.ofBody extensions limit e.body offset e.opcode)

/-- The response, unless the server reports an error. -/
def ok (r : Response) : Except DatabaseError Response :=
  match r.body with
  | .error error => .error ⟨r.tracingId, r.warnings, r.customPayload, error⟩
  | _ => .ok r

end Response

end CqlClient
