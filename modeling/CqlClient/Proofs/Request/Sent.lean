import CqlClient.Proofs.Frame.Envelope
import CqlClient.Proofs.Fronts
import CqlClient.Proofs.Request.Size
import CqlClient.Proofs.Row.Writer

/-!
# Requests read back

What a server makes of a request: a reader of version 4 of the protocol, which knows of the optional
parts of a statement only what the byte of flags says.

* `SentParameters.reads_bytes`: it reads back every parameter of a statement;
* `SentRequest.reads_body`: and every field of a request;
* `Request.frame_eq_ok`: the frame of a request is its header and its body, in a buffer that has the
  size of the two.
-/

namespace CqlClient

/-! ## The reader -/

/-- The parameters of a statement as they arrive. -/
structure SentParameters where
  consistency : AnyConsistency
  values : Option (List (Bound Bytes))
  skipMetadata : Bool
  pageSize : Option Int32
  pagingState : Option Bytes
  serialConsistency : Option AnyConsistency
  timestamp : Option Int64
  deriving DecidableEq

inductive SentRequest where
  | options
  | startup (options : List (String × String))
  | prepare (statement : String)
  | query (statement : String) (parameters : SentParameters)
  | execute (id : Bytes) (parameters : SentParameters)
  deriving DecidableEq

open Wire (WireReader)

/-- A value to bind: a length below zero stands for null or for unset, or for nothing at all. -/
def Bound.read : WireReader (Bound Bytes) := do
  let length ← Wire.int32
  if length = -1 then return .null
  else if length = -2 then return .unset
  else if length < 0 then throw .numberTooSmall
  else return .value (← Wire.raw length.toInt.toNat)

namespace SentParameters

def readIf {α : Type} (present : Bool) (part : WireReader α) : WireReader (Option α) :=
  if present then return some (← part) else return none

def int64 : WireReader Int64 := return (← Wire.raw 8).toInt64

/-- A value to bind, behind its name if values have names. Names tell nothing of the value. -/
def readValue (named : Bool) : WireReader (Bound Bytes) := do
  let _ ← readIf named Wire.string
  Bound.read

def read : WireReader SentParameters := do
  let consistency ← Wire.consistency
  let flags ← Wire.uint8
  let has (bit : Nat) : Bool := flags.toNat.testBit bit
  let values ← readIf (has 0) (Wire.counted (readValue (has 6)))
  let pageSize ← readIf (has 2) Wire.int32
  let pagingState ← readIf (has 3) Wire.bytes
  let serialConsistency ← readIf (has 4) Wire.consistency
  let timestamp ← readIf (has 5) int64
  return ⟨consistency, values, has 1, pageSize, pagingState, serialConsistency, timestamp⟩

end SentParameters

namespace SentRequest

def longString : WireReader String := do
  match Utf8.decode (← Wire.bytes) with
  | .ok text => return text
  | .error fault => throw (.text fault)

/-- The request that the body of a frame of an opcode holds. -/
def read : Opcode → FrameReader SentRequest
  | .options => return .options
  | .startup => return .startup (← FrameReader.wire Wire.stringMap)
  | .prepare => return .prepare (← FrameReader.wire longString)
  | .query =>
    return .query (← FrameReader.wire longString) (← FrameReader.wire SentParameters.read)
  | .execute =>
    return .execute (← FrameReader.wire Wire.shortBytes) (← FrameReader.wire SentParameters.read)
  | opcode => throw (.unexpectedOpcode opcode)

end SentRequest

/-! ## What is sent -/

/-- The row is one that was written cell by cell, and these are its cells. -/
def BoundRow.Written (row : BoundRow) (cells : List (Bound Bytes)) : Prop :=
  ∃ attempts : List (List Attempt),
    (RowWriter.new.fill attempts).finalize = .ok row ∧
      attempts.filterMap Attempt.firstCell? = cells

/-- The parameters, the cells of the row being given. No cells at all are no values. -/
def QueryParameters.sent (p : QueryParameters) (cells : List (Bound Bytes)) : SentParameters where
  consistency := .regular p.consistency
  values := (p.values.map fun _ => cells).filter (!·.isEmpty)
  skipMetadata := p.skipMetadata
  pageSize := p.pageSize
  pagingState := p.pagingState
  serialConsistency := p.serialConsistency.map .serial
  timestamp := p.timestamp

namespace Request

def row? : Request → Option BoundRow
  | query _ parameters | execute _ parameters => parameters.values
  | _ => none

def sent (cells : List (Bound Bytes)) : Request → SentRequest
  | options => .options
  | startup entries => .startup entries
  | prepare statement => .prepare statement
  | query statement parameters => .query statement (parameters.sent cells)
  | execute id parameters => .execute id (parameters.sent cells)

end Request

/-! ## Values -/

theorem Bound.reads_cellBytes {cell : Bound Bytes} (h : cell.Sized) :
    Reads Bound.read cell.cellBytes cell := by
  cases cell with
  | null => exact (reads_int32 (-1)).bind_nil (reads_pure _)
  | unset => exact (reads_int32 (-2)).bind_nil (reads_pure _)
  | value bytes =>
    rw [Bound.cellBytes, Wire.writeBytes, ← ofInt32_ofNat h]
    refine (reads_int32 _).bind ?_
    have hpos := not_int32_ofNat_neg h
    have hnull : Int32.ofNat bytes.length ≠ -1 := fun heq => hpos (heq ▸ by decide)
    have hunset : Int32.ofNat bytes.length ≠ -2 := fun heq => hpos (heq ▸ by decide)
    rw [if_neg hnull, if_neg hunset, if_neg hpos, toInt_int32_ofNat h]
    exact (reads_raw rfl).map Bound.value

/-- A row that was written holds the count of its cells and the cells. -/
theorem BoundRow.Written.bytes_eq {row : BoundRow} {cells : List (Bound Bytes)}
    (h : row.Written cells) :
    row.bytes = Bytes.ofNat 2 cells.length ++ cellsBytes cells ∧
      cells.length ≤ Wire.maxUInt16 ∧ row.isEmpty = cells.isEmpty ∧
        ∀ cell ∈ cells, cell.Sized := by
  obtain ⟨attempts, hrow, rfl⟩ := h
  have hholds := RowWriter.fill_holds RowWriter.new_holds attempts
  rw [List.nil_append] at hholds
  obtain ⟨hpending, hcount⟩ := (RowWriter.finalize_ok_iff hholds).mp ⟨row, hrow⟩
  rw [RowWriter.finalize_eq hholds hpending hcount] at hrow
  cases hrow
  refine ⟨rfl, hcount, ?_, RowWriter.filterMap_sized⟩
  have hnumber := toNat_uint16_ofNat hcount
  rw [BoundRow.isEmpty, Bool.eq_iff_iff, beq_iff_eq, List.isEmpty_iff, ← UInt16.toNat_inj, hnumber]
  exact List.length_eq_zero_iff

/-! ## Parameters -/

theorem AnyConsistency.ofCode?_code (level : AnyConsistency) :
    AnyConsistency.ofCode? level.code = some level := by
  rcases level with level | level
  · cases level <;> rfl
  · cases level <;> rfl

theorem reads_consistency (level : AnyConsistency) :
    Reads Wire.consistency (Bytes.ofUInt16 level.code) level := by
  refine (reads_uint16 _).bind_nil ?_
  rw [AnyConsistency.ofCode?_code]
  exact reads_pure level

namespace SentParameters

theorem reads_int64 (n : Int64) : Reads int64 (Bytes.ofInt64 n) n := by
  have h := (reads_raw (Bytes.length_ofNat 8 n.toUInt64.toNat)).map Bytes.toInt64
  have e : Bytes.toInt64 (Bytes.ofNat 8 n.toUInt64.toNat) = n := toInt64_ofInt64 n
  rwa [e] at h

theorem reads_wireBytes {bytes : Bytes} (h : bytes.length ≤ Wire.maxInt32) :
    Reads Wire.bytes (Wire.writeBytes bytes) bytes :=
  (reads_optionalBytes h).bind_nil (reads_pure bytes)

/-- A part that is written when there is one is read when the flag says so. -/
theorem reads_readIf {α β : Type} {o : Option α} {part : WireReader β} {write : α → Bytes}
    {value : α → β} (h : ∀ a, o = some a → Reads part (write a) (value a)) :
    Reads (readIf o.isSome part) (o.elim [] write) (o.map value) := by
  cases o with
  | none => exact reads_pure none
  | some a => exact (h a rfl).map some

/-- As `reads_readIf`, the part being read as it is. -/
theorem reads_readIf_same {α : Type} {o : Option α} {part : WireReader α} {write : α → Bytes}
    (h : ∀ a, o = some a → Reads part (write a) a) :
    Reads (readIf o.isSome part) (o.elim [] write) o := by
  have hmapped := reads_readIf h
  rwa [Option.map_id'] at hmapped

theorem testBit_ofBits (b₀ b₁ b₂ b₃ b₄ b₅ : Bool) :
    let bits := UInt8.ofNat (b₀.toNat + 2 * b₁.toNat + 4 * b₂.toNat + 8 * b₃.toNat +
      16 * b₄.toNat + 32 * b₅.toNat)
    bits.toNat.testBit 0 = b₀ ∧ bits.toNat.testBit 1 = b₁ ∧ bits.toNat.testBit 2 = b₂ ∧
      bits.toNat.testBit 3 = b₃ ∧ bits.toNat.testBit 4 = b₄ ∧ bits.toNat.testBit 5 = b₅ ∧
      bits.toNat.testBit 6 = false := by
  revert b₀ b₁ b₂ b₃ b₄ b₅
  decide

/-- Each flag says whether there is a part; none says that values have names. -/
theorem testBit_flags (p : QueryParameters) :
    let bits := p.flags.toNat
    bits.testBit 0 = p.values?.isSome ∧ bits.testBit 1 = p.skipMetadata ∧
      bits.testBit 2 = p.pageSize.isSome ∧ bits.testBit 3 = p.pagingState.isSome ∧
      bits.testBit 4 = p.serialConsistency.isSome ∧ bits.testBit 5 = p.timestamp.isSome ∧
      bits.testBit 6 = false :=
  testBit_ofBits ..

/-- The values are written as a whole row, unless it has no cell. -/
theorem reads_values (p : QueryParameters) {cells : List (Bound Bytes)}
    (h : ∀ row, p.values = some row → row.Written cells) :
    Reads (readIf p.values?.isSome (Wire.counted (readValue false)))
      (p.values?.elim [] (·.bytes)) ((p.values.map fun _ => cells).filter (!·.isEmpty)) := by
  cases hvalues : p.values with
  | none =>
    rw [QueryParameters.values?, hvalues]
    exact reads_pure none
  | some row =>
    obtain ⟨hbytes, hcount, hempty, hsized⟩ := (h row hvalues).bytes_eq
    have hrow : Reads (Wire.counted (readValue false)) row.bytes cells := by
      rw [hbytes, cellsBytes, ← List.flatMap_def]
      refine reads_counted hcount fun cell hcell => ?_
      exact (reads_pure none).bind (Bound.reads_cellBytes (hsized cell hcell))
    rw [QueryParameters.values?, hvalues, Option.filter_some, hempty, Option.map_some,
      Option.filter_some]
    cases cells.isEmpty with
    | true => exact reads_pure none
    | false => exact hrow.map some

theorem reads_bytes {p : QueryParameters} {cells : List (Bound Bytes)} (hfits : p.Fits)
    (h : ∀ row, p.values = some row → row.Written cells) :
    Reads read p.bytes (p.sent cells) := by
  have hpieces : p.bytes = Bytes.ofUInt16 (AnyConsistency.regular p.consistency).code ++
      ([p.flags] ++ (p.values?.elim [] (·.bytes) ++ (p.pageSize.elim [] Bytes.ofInt32 ++
        (p.pagingState.elim [] Wire.writeBytes ++
          (p.serialConsistency.elim []
            (fun level => Bytes.ofUInt16 (AnyConsistency.serial level).code) ++
              p.timestamp.elim [] Bytes.ofInt64))))) := by
    simp [QueryParameters.bytes, AnyConsistency.code]
  obtain ⟨hvalues, hskip, hpageSize, hpagingState, hserial, htimestamp, hnamed⟩ := testBit_flags p
  rw [hpieces]
  refine (reads_consistency _).bind ((reads_uint8 _).bind ?_)
  simp only [hvalues, hskip, hpageSize, hpagingState, hserial, htimestamp, hnamed]
  refine (reads_values p h).bind ?_
  refine (reads_readIf_same fun n _ => reads_int32 n).bind ?_
  refine (reads_readIf_same fun state hsome => reads_wireBytes (hfits state hsome)).bind ?_
  refine (reads_readIf fun level _ => reads_consistency (.serial level)).bind ?_
  refine (reads_readIf_same fun n _ => reads_int64 n).bind_nil ?_
  exact reads_pure _

end SentParameters

/-! ## Requests -/

namespace SentRequest

theorem reads_longString {text : String} (h : (Utf8.encode text).length ≤ Wire.maxInt32) :
    Reads longString (Wire.writeBytes (Utf8.encode text)) text := by
  refine (SentParameters.reads_wireBytes h).bind_nil ?_
  rw [Utf8.decode_encode]
  exact reads_pure text

theorem reads_stringMap {entries : List (String × String)}
    (hcount : entries.length ≤ Wire.maxUInt16)
    (h : ∀ entry ∈ entries, Request.EntryFits entry) :
    Reads Wire.stringMap (Request.mapBytes entries) entries := by
  refine reads_counted hcount fun entry hentry => ?_
  obtain ⟨hkey, hvalue⟩ := h entry hentry
  exact (needsAll_string hkey).reads.bind ((needsAll_string hvalue).reads.map _)

/-- Every request whose lengths fit is read back from its body, to the last byte. -/
theorem reads_body {request : Request} {cells : List (Bound Bytes)} (hfits : request.Fits)
    (h : ∀ row, request.row? = some row → row.Written cells) :
    Reads (read request.opcode) request.body (request.sent cells) := by
  cases request with
  | options => exact reads_pure _
  | startup entries => exact (FrameReader.reads_wire (reads_stringMap hfits.1 hfits.2)).map _
  | prepare statement => exact (FrameReader.reads_wire (reads_longString hfits)).map _
  | query statement parameters =>
    have hparameters := FrameReader.reads_wire (SentParameters.reads_bytes hfits.2 h)
    exact (FrameReader.reads_wire (reads_longString hfits.1)).bind (hparameters.map _)
  | execute id parameters =>
    have hparameters := FrameReader.reads_wire (SentParameters.reads_bytes hfits.2 h)
    exact (FrameReader.reads_wire (needsAll_shortBytes hfits.1).reads).bind (hparameters.map _)

end SentRequest

/-! ## Frames -/

namespace Request

variable {request : Request} {n : Nat}

theorem frame_tooBig (tracing : Bool) (stream : Int16) (hsize : request.size = .ok n)
    (h : n > maxBodyLength) :
    request.frame tracing stream = .error (.frameTooBig (Header.size + n)) := by
  have hcheck : checkSize n = .error (.frameTooBig (Header.size + n)) := if_pos h
  rw [frame, hsize]
  show (checkSize n >>= fun _ => _) = _
  rw [hcheck]
  rfl

/-- The header and the body take the whole of the buffer, one after the other. -/
theorem frame_eq_ok (tracing : Bool) (stream : Int16) (hsize : request.size = .ok n)
    (h : n ≤ maxBodyLength) :
    request.frame tracing stream =
      .ok ((request.header tracing stream n).bytes ++ request.body) := by
  obtain ⟨-, hbody⟩ := (request.sizes n).mp hsize
  have hcheck : checkSize n = .ok () := if_neg (by omega)
  have hheader := (request.header tracing stream n).length_bytes
  have hbuffer : (Array.replicate (Header.size + n) (0 : UInt8)).toList =
      [] ++ List.replicate Header.size 0 ++ List.replicate n 0 := by
    simp [List.replicate_append_replicate]
  have hfirst := toList_overwrite hbuffer (hheader.trans List.length_replicate.symm)
  rw [List.nil_append, ← List.append_nil (_ ++ _)] at hfirst
  have hsecond := toList_overwrite hfirst (hbody.trans List.length_replicate.symm)
  rw [hheader, List.append_nil] at hsecond
  rw [frame, hsize]
  show (checkSize n >>= fun _ => _) = _
  rw [hcheck]
  show Except.ok _ = Except.ok _
  rw [Array.size_replicate, Nat.add_sub_cancel_left]
  exact congrArg Except.ok hsecond

/-- The size of a request is found exactly when every length fits the prefix that announces it. A
request of a size that a frame can have is written whole into a buffer of that size, and what is
written is a frame with the given stream and flag, from whose body every field is read back; a
larger one is refused for its size. -/
theorem frame_of_size (request : Request) (tracing : Bool) (stream : Int16)
    (cells : List (Bound Bytes)) (hrow : ∀ row, request.row? = some row → row.Written cells) :
    ((∃ fault, request.size = .error fault) ↔ ¬ request.Fits) ∧
    ∀ n, request.size = .ok n →
      (n ≤ maxBodyLength →
        ∃ header bytes, request.frame tracing stream = .ok bytes ∧
          bytes = header ++ request.body ∧ request.body.length = n ∧ bytes.length = 9 + n ∧
          Envelope.ofBytes bytes = .ok
            ⟨0x04, { Flags.none with tracing }, stream, request.opcode, request.body⟩ ∧
          SentRequest.read request.opcode request.body = .ok (request.sent cells) []) ∧
      (n > maxBodyLength →
        request.frame tracing stream = .error (.frameTooBig (9 + n))) := by
  refine ⟨request.sizes.failed_iff, fun n hsize => ⟨fun h => ?_, frame_tooBig tracing stream hsize⟩⟩
  obtain ⟨hfits, hbody⟩ := (request.sizes n).mp hsize
  have hlength : (request.header tracing stream n).length.toNat = n := by
    have hlt : n < 2 ^ 32 := by simp only [maxBodyLength] at h; omega
    rw [header, UInt32.toNat_ofNat', Nat.mod_eq_of_lt hlt]
  have hread := SentRequest.reads_body hfits hrow []
  rw [List.append_nil] at hread
  refine ⟨_, _, frame_eq_ok tracing stream hsize h, rfl, hbody, ?_, ?_, hread⟩
  · rw [List.length_append, Header.length_bytes, hbody, Header.size]
  · exact Envelope.ofBytes_append (hbody.trans hlength.symm) (hlength.symm ▸ h)

/-- A statement with all its optional parts, and a row of a value, null and unset. -/
def everyPart : Request :=
  .query "SELECT v FROM tb" {
    consistency := .quorum
    values := some ⟨[0, 3, 0, 0, 0, 2, 7, 8, 255, 255, 255, 255, 255, 255, 255, 254], 3⟩
    skipMetadata := true
    pageSize := some 100
    pagingState := some [0xAA]
    serialConsistency := some .localSerial
    timestamp := some (-1) }

theorem frame_of_size_everyPart :
    everyPart.size = .ok 58 ∧ ∃ bytes, everyPart.frame true 5 = .ok bytes ∧ bytes.length = 67 ∧
      SentRequest.read .query everyPart.body =
        .ok (everyPart.sent [.value [7, 8], .null, .unset]) [] := by
  have hsize : everyPart.size = .ok 58 := rfl
  have hrow : ∀ row, everyPart.row? = some row → row.Written [.value [7, 8], .null, .unset] := by
    rintro row ⟨⟩
    exact ⟨[[.value [7, 8]], [.null], [.unset]], rfl, rfl⟩
  obtain ⟨-, hframe⟩ := frame_of_size everyPart true 5 _ hrow
  obtain ⟨header, bytes, hbytes, -, -, hlength, -, hread⟩ := (hframe 58 hsize).1 (by decide)
  exact ⟨hsize, bytes, hbytes, hlength, hread⟩

end Request

end CqlClient
