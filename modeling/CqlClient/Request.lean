import CqlClient.Fault
import CqlClient.Frame.Envelope
import CqlClient.Row.Writer

/-!
Requests and the frames that carry them. The size of a body is computed and checked before
anything is written, so that no length is ever cut to fit its prefix.
-/

namespace CqlClient

/-- The parameters of statements. An empty row of values is left out. -/
structure QueryParameters where
  consistency : Consistency
  values : Option BoundRow
  skipMetadata : Bool
  pageSize : Option Int32
  pagingState : Option Bytes
  serialConsistency : Option SerialConsistency
  timestamp : Option Int64

inductive Request where
  | options
  | startup (options : List (String × String))
  | prepare (statement : String)
  | query (statement : String) (parameters : QueryParameters)
  | execute (id : Bytes) (parameters : QueryParameters)

/-- Why a request cannot be sent. -/
inductive RequestFault where
  | tooLarge (size : ValueTooLarge)
  | frameTooBig (size : Nat)
  | values (fault : BindFault)
  deriving DecidableEq

def RequestFault.message : RequestFault → String
  | tooLarge size => size.message
  | frameTooBig size =>
    "Frame too big to be sent (" ++ toString size ++ " bytes), maximum is 256MiB"
  | values fault => fault.message

def RequestFault.label : RequestFault → String
  | tooLarge _ => "ValueTooLarge"
  | frameTooBig _ => "FrameTooBig"
  | values fault => fault.label

instance : Fault RequestFault := ⟨RequestFault.label, RequestFault.message⟩

namespace QueryParameters

def values? (p : QueryParameters) : Option BoundRow := p.values.filter (!·.isEmpty)

def optionalSize {α : Type} (size : α → Except ValueTooLarge Nat) :
    Option α → Except ValueTooLarge Nat
  | some a => size a
  | none => .ok 0

def size (p : QueryParameters) : Except ValueTooLarge Nat := do
  let pagingState ← optionalSize Wire.sizeOfBytes p.pagingState
  return 3 + (p.values?.elim 0 (·.bytes.length)) + (p.pageSize.elim 0 fun _ => 4) + pagingState +
    (p.serialConsistency.elim 0 fun _ => 2) + (p.timestamp.elim 0 fun _ => 8)

def flags (p : QueryParameters) : UInt8 :=
  UInt8.ofNat (p.values?.isSome.toNat + 2 * p.skipMetadata.toNat + 4 * p.pageSize.isSome.toNat +
    8 * p.pagingState.isSome.toNat + 16 * p.serialConsistency.isSome.toNat +
    32 * p.timestamp.isSome.toNat)

def bytes (p : QueryParameters) : Bytes :=
  Bytes.ofUInt16 p.consistency.code ++ [p.flags] ++ p.values?.elim [] (·.bytes) ++
    p.pageSize.elim [] Bytes.ofInt32 ++ p.pagingState.elim [] Wire.writeBytes ++
    p.serialConsistency.elim [] (fun level => Bytes.ofUInt16 level.code) ++
    p.timestamp.elim [] Bytes.ofInt64

end QueryParameters

namespace Request

def opcode : Request → Opcode
  | options => .options
  | startup _ => .startup
  | prepare _ => .prepare
  | query .. => .query
  | execute .. => .execute

def entrySize (entry : String × String) : Except ValueTooLarge Nat := do
  return (← Wire.sizeOfString entry.1) + (← Wire.sizeOfString entry.2)

def mapSize (entries : List (String × String)) : Except ValueTooLarge Nat := do
  let count := entries.length
  if count > Wire.maxUInt16 then throw ⟨count⟩
  entries.foldlM (fun size entry => return size + (← entrySize entry)) 2

def entryBytes (entry : String × String) : Bytes :=
  Wire.writeString entry.1 ++ Wire.writeString entry.2

def mapBytes (entries : List (String × String)) : Bytes :=
  Bytes.ofNat 2 entries.length ++ entries.flatMap entryBytes

/-- The size of the body, unless a length does not fit its prefix. -/
def size : Request → Except ValueTooLarge Nat
  | options => .ok 0
  | startup entries => mapSize entries
  | prepare statement => Wire.sizeOfBytes (Utf8.encode statement)
  | query statement parameters => do
    return (← Wire.sizeOfBytes (Utf8.encode statement)) + (← parameters.size)
  | execute id parameters => do return (← Wire.sizeOfShortBytes id) + (← parameters.size)

def body : Request → Bytes
  | options => []
  | startup entries => mapBytes entries
  | prepare statement => Wire.writeBytes (Utf8.encode statement)
  | query statement parameters =>
    Wire.writeBytes (Utf8.encode statement) ++ parameters.bytes
  | execute id parameters => Wire.writeShortBytes id ++ parameters.bytes

/-- Refuses a body that no frame can hold. -/
def checkSize (size : Nat) : Except RequestFault Unit :=
  if size > maxBodyLength then .error (.frameTooBig (Header.size + size)) else .ok ()

/-- The version byte of frames sent by clients. -/
def version : UInt8 := 0x04

def header (request : Request) (tracing : Bool) (stream : Int16) (length : Nat) : Header :=
  ⟨version, { Flags.none with tracing }, stream, request.opcode, UInt32.ofNat length⟩

/-- The frame of a request, on a stream. It is written into a buffer of the size found before. -/
def frame (request : Request) (tracing : Bool) (stream : Int16) : Except RequestFault Bytes := do
  let size ← request.size.mapError .tooLarge
  checkSize size
  let buffer := Array.replicate (Header.size + size) 0
  let header := request.header tracing stream (buffer.size - Header.size)
  return (overwrite (overwrite buffer 0 header.bytes) Header.size request.body).toList

end Request

end CqlClient
