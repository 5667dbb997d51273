import CqlClient.Frame.Fault

/-!
Frames: a header of nine bytes, which announces the length of the body, and the body.
-/

namespace CqlClient

/-- The flags of a header. Bits that stand for none of them are ignored. -/
structure Flags where
  compression : Bool
  tracing : Bool
  customPayload : Bool
  warnings : Bool
  useBeta : Bool
  deriving DecidableEq

namespace Flags

def none : Flags := ⟨false, false, false, false, false⟩

def ofBits (bits : UInt8) : Flags :=
  let n := bits.toNat
  ⟨n.testBit 0, n.testBit 1, n.testBit 2, n.testBit 3, n.testBit 4⟩

def bits (flags : Flags) : UInt8 :=
  UInt8.ofNat (flags.compression.toNat + 2 * flags.tracing.toNat + 4 * flags.customPayload.toNat +
    8 * flags.warnings.toNat + 16 * flags.useBeta.toNat)

theorem ofBits_bits (flags : Flags) : ofBits flags.bits = flags := by
  rcases flags with ⟨_ | _, _ | _, _ | _, _ | _, _ | _⟩ <;> rfl

end Flags

structure Header where
  version : UInt8
  flags : Flags
  stream : Int16
  opcode : Opcode
  length : UInt32
  deriving DecidableEq

structure Envelope where
  version : UInt8
  flags : Flags
  stream : Int16
  opcode : Opcode
  body : Bytes
  deriving DecidableEq

/-- The longest body of a frame. -/
def maxBodyLength : Nat := 2 ^ 28 - 1

namespace Header

def size : Nat := 9

def bytes (header : Header) : Bytes :=
  [header.version, header.flags.bits] ++ Bytes.ofInt16 header.stream ++
    [header.opcode.code] ++ Bytes.ofUInt32 header.length

def read : FrameReader Header := do
  let front ← FrameReader.wire (Wire.raw size)
  let fields : FrameReader Header := do
    let version ← FrameReader.wire Wire.uint8
    let flags ← FrameReader.wire Wire.uint8
    let stream ← FrameReader.wire Wire.int16
    let code ← FrameReader.wire Wire.uint8
    match Opcode.ofCode? code with
    | none => throw (.unknownOpcode code)
    | some opcode =>
      let length ← FrameReader.wire Wire.uint32
      if length.toNat > maxBodyLength then throw (.tooBig length.toNat)
      return ⟨version, Flags.ofBits flags, stream, opcode, length⟩
  Reader.ofExcept (fields.outcome front)

def envelope (header : Header) (body : Bytes) : Envelope :=
  ⟨header.version, header.flags, header.stream, header.opcode, body⟩

/-- The body of a result that has nothing to say. It comes so often that one copy is shared. -/
def voidBody : Bytes := Bytes.ofUInt32 1

/-- Reads as many bytes as are announced. -/
def readWholeBody (header : Header) : FrameReader Bytes :=
  FrameReader.wire (Wire.raw header.length.toNat)

/-- Reads the body that follows a header. Results of four bytes are mostly void, and need no room of
their own then. -/
def readBody (header : Header) : FrameReader Bytes :=
  if header.opcode = .result ∧ header.length.toNat = voidBody.length then do
    let body ← FrameReader.wire (Wire.raw voidBody.length)
    return if body = voidBody then voidBody else body
  else header.readWholeBody

theorem consumes_read : read.Consumes size :=
  ((Reader.consumes_exactly _ size).mapError FrameFault.wire).bind fun _ =>
    Reader.consumes_ofExcept _

theorem consumes_readBody (header : Header) : header.readBody.Consumes 0 := by
  have hraw (n : Nat) : (FrameReader.wire (Wire.raw n)).Consumes 0 :=
    ((Reader.consumes_exactly _ n).mapError _).mono (Nat.zero_le n)
  rw [readBody]
  split
  · exact (hraw _).bind fun _ => Reader.consumes_pure _
  · exact hraw _

end Header

namespace Envelope

def header (e : Envelope) : Header :=
  ⟨e.version, e.flags, e.stream, e.opcode, UInt32.ofNat e.body.length⟩

def bytes (e : Envelope) : Bytes := e.header.bytes ++ e.body

/-- The frame of a header and a body, which has to be as long as announced. -/
def ofParts (header : Header) (body : Bytes) : Except FrameFault Envelope :=
  let found := body.length
  if found ≠ header.length.toNat then .error (.lengthMismatch found header.length.toNat)
  else .ok (header.envelope body)

/-- Reads a frame from a stream of bytes. -/
def read : FrameReader Envelope := do
  let header ← Header.read
  let body ← header.readBody
  Reader.ofExcept (ofParts header body)

/-- The frame that bytes hold completely. -/
def ofBytes (bytes : Bytes) : Except FrameFault Envelope :=
  match Header.read bytes with
  | .error fault _ => .error fault
  | .ok header body => ofParts header body

/-- What can be read so far: the next frame and the bytes after it, or why there is none. -/
inductive Next where
  | frame (e : Envelope) (rest : Bytes)
  | incomplete
  | malformed (fault : FrameFault)

def next (bytes : Bytes) : Next :=
  match read bytes with
  | .ok e rest => .frame e rest
  | .error fault _ => if fault.isEndOfInput then .incomplete else .malformed fault

/-- Why a loop over the frames of a stream of bytes ends. -/
inductive LoopFault (ε : Type) where
  | frame (fault : FrameFault)
  | callback (fault : ε)

/-- Every frame is longer than what is left of its bytes. -/
theorem read_shortens {bytes rest : Bytes} {e : Envelope} (h : read bytes = .ok e rest) :
    rest.length < bytes.length := by
  have hread : Reader.Consumes Header.size read :=
    Header.consumes_read.bind fun header => (header.consumes_readBody).bind fun body =>
      Reader.consumes_ofExcept (ofParts header body)
  have hlength := hread _ _ _ h
  simp only [Header.size] at hlength
  omega

/-- Calls back with the frames of a stream of bytes, one after the other, until the callback fails
or no frame can be read: at the end of the input, if nothing else is wrong. -/
def readLoop {σ ε : Type} (callback : Envelope → EStateM ε σ Unit) (bytes : Bytes) :
    EStateM (LoopFault ε) σ Empty :=
  match _h : read bytes with
  | .ok e rest => do
    (callback e).adaptExcept .callback
    readLoop callback rest
  | .error fault _ => throw (.frame fault)
termination_by bytes.length
decreasing_by exact read_shortens ‹_›

/-- Puts a frame in front of those that came before it. -/
def keep (e : Envelope) : EStateM Empty (List Envelope) Unit := modify (e :: ·)

/-- The frames of a stream of bytes, and the fault that ends them. -/
def readAll (bytes : Bytes) : List Envelope × FrameFault :=
  match readLoop keep bytes [] with
  | .error (.frame fault) done => (done.reverse, fault)

end Envelope

end CqlClient
