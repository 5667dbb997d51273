import CqlClient.Frame.Fault
import CqlClient.Supported
import CqlClient.Text.Extending
import CqlClient.Text.Invisible

/-!
Errors that a server reports: a code, a message, and details that depend on the code. Names in them
are shown between double quotes, on one line: quotes, backslashes and characters that cannot be
seen by themselves are escaped.
-/

namespace CqlClient

namespace Text

def isPrintable (c : Char) : Bool := !isExtending c && !isInvisible c

def escapeChar (c : Char) : List Char :=
  match c with
  | '"' => ['\\', '"']
  | '\\' => ['\\', '\\']
  | '\n' => ['\\', 'n']
  | '\r' => ['\\', 'r']
  | '\t' => ['\\', 't']
  | '\x00' => ['\\', '0']
  | c => if isPrintable c then [c]
    else ['\\', 'u', '\x7b'] ++ Nat.toDigits 16 c.toNat ++ ['\x7d']

def quote (s : String) : String :=
  String.ofList ('"' :: s.toList.flatMap escapeChar ++ ['"'])

end Text

inductive ErrorCode where
  | serverError | protocolError | authenticationError | unavailable | overloaded
  | isBootstrapping | truncateError | writeTimeout | readTimeout | readFailure | functionFailure
  | writeFailure | cdcWriteFailure | casWriteUnknown | syntaxError | unauthorized | invalid
  | configError | alreadyExists | unprepared
  deriving DecidableEq

namespace ErrorCode

def all : List ErrorCode :=
  [serverError, protocolError, authenticationError, unavailable, overloaded, isBootstrapping,
    truncateError, writeTimeout, readTimeout, readFailure, functionFailure, writeFailure,
    cdcWriteFailure, casWriteUnknown, syntaxError, unauthorized, invalid, configError,
    alreadyExists, unprepared]

def code : ErrorCode → UInt32
  | serverError => 0x0000
  | protocolError => 0x000A
  | authenticationError => 0x0100
  | unavailable => 0x1000
  | overloaded => 0x1001
  | isBootstrapping => 0x1002
  | truncateError => 0x1003
  | writeTimeout => 0x1100
  | readTimeout => 0x1200
  | readFailure => 0x1300
  | functionFailure => 0x1400
  | writeFailure => 0x1500
  | cdcWriteFailure => 0x1600
  | casWriteUnknown => 0x1700
  | syntaxError => 0x2000
  | unauthorized => 0x2100
  | invalid => 0x2200
  | configError => 0x2300
  | alreadyExists => 0x2400
  | unprepared => 0x2500

def name : ErrorCode → String
  | serverError => "ServerError"
  | protocolError => "ProtocolError"
  | authenticationError => "AuthenticationError"
  | unavailable => "Unavailable"
  | overloaded => "Overloaded"
  | isBootstrapping => "IsBootstrapping"
  | truncateError => "TruncateError"
  | writeTimeout => "WriteTimeout"
  | readTimeout => "ReadTimeout"
  | readFailure => "ReadFailure"
  | functionFailure => "FunctionFailure"
  | writeFailure => "WriteFailure"
  | cdcWriteFailure => "CdcWriteFailure"
  | casWriteUnknown => "CasWriteUnknown"
  | syntaxError => "SyntaxError"
  | unauthorized => "Unauthorized"
  | invalid => "Invalid"
  | configError => "ConfigError"
  | alreadyExists => "AlreadyExists"
  | unprepared => "Unprepared"

def ofCode? (code : UInt32) : Option ErrorCode := all.find? (·.code == code)

theorem ofCode?_code (c : ErrorCode) : ofCode? c.code = some c := by cases c <;> rfl

end ErrorCode

/-- The details that callers branch on; those of other codes are kept as they came. -/
inductive ErrorDetail where
  | alreadyExists (keyspace table : String)
  | unavailable (consistency : AnyConsistency) (required alive : UInt32)
  | unprepared (id : Bytes)
  | rateLimitReached (isWrite rejectedByCoordinator : Bool)
  | other (code : UInt32) (details : Bytes)
  deriving DecidableEq

namespace ErrorDetail

def message : ErrorDetail → String
  | alreadyExists keyspace table =>
    "Already existing keyspace " ++ Text.quote keyspace ++ " (table: " ++ Text.quote table ++ ")"
  | unavailable consistency required alive =>
    "Not enough alive nodes for " ++ consistency.name ++ " (required: " ++
      toString required.toNat ++ ", alive: " ++ toString alive.toNat ++ ")"
  | unprepared _ => "Statement is not prepared on this node"
  | rateLimitReached _ rejectedByCoordinator =>
    "Partition rate limit reached (rejected by coordinator: " ++
      toString rejectedByCoordinator ++ ")"
  | other code _ => "Error code " ++ Text.hex 4 code.toNat

open FrameReader in
/-- Reads the details of an error code; the rate limit code is known from the extensions. -/
def read (extensions : Extensions) (code : UInt32) : FrameReader ErrorDetail := do
  match ErrorCode.ofCode? code with
  | some .alreadyExists => return .alreadyExists (← wire Wire.string) (← wire Wire.string)
  | some .unavailable =>
    return .unavailable (← wire Wire.consistency) (← wire Wire.uint32) (← wire Wire.uint32)
  | some .unprepared => return .unprepared (← wire Wire.shortBytes)
  | some _ => return .other code (← Reader.rest)
  | none =>
    if extensions.rateLimitCode ≠ some code then return .other code (← Reader.rest)
    let operation ← wire Wire.uint8
    if operation > 1 then throw (.rateLimitOperation operation)
    return .rateLimitReached (operation == 1) (← wire Wire.boolean)

end ErrorDetail

structure ServerError where
  code : UInt32
  message : String
  detail : ErrorDetail
  deriving DecidableEq

namespace ServerError

def text (e : ServerError) : String := e.message ++ " (" ++ e.detail.message ++ ")"

def known? (e : ServerError) : Option ErrorCode := ErrorCode.ofCode? e.code

def read (extensions : Extensions) : FrameReader ServerError := do
  let code ← FrameReader.wire Wire.uint32
  let message ← FrameReader.wire Wire.string
  return ⟨code, message, ← ErrorDetail.read extensions code⟩

end ServerError

end CqlClient
