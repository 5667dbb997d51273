import CqlClient.Fault
import CqlClient.Keyspace
import CqlClient.Request
import CqlClient.Response
import CqlClient.Row.Decode

/-!
What can go wrong in a session, from a single request to its opening, and how callers that do not
look at the details may sort it.
-/

namespace CqlClient

/-- What callers branch on. -/
inductive Category where
  /-- The connection is lost, closed or busy. -/
  | transport
  /-- The other side does not follow the protocol. -/
  | protocol
  | unsupportedType
  /-- A limit of the protocol is exceeded; nothing was sent. -/
  | valueTooLarge
  | alreadyExists
  | doesNotExist
  /-- The request makes no sense; nothing was sent. -/
  | misuse
  | database
  deriving DecidableEq

def Category.name : Category → String
  | transport => "Transport"
  | protocol => "Protocol"
  | unsupportedType => "UnsupportedType"
  | valueTooLarge => "ValueTooLarge"
  | alreadyExists => "AlreadyExists"
  | doesNotExist => "DoesNotExist"
  | misuse => "ApiMisuse"
  | database => "Database"

/-- An answer that does not follow the protocol. -/
inductive Violation where
  | completedTwice (stream : Int16)
  | malformed (fault : FrameFault)
  | trailingBytes (count : Nat)
  | unexpected (response : String)
  deriving DecidableEq

def Violation.message : Violation → String
  | completedTwice stream => "Stream " ++ toString stream.toInt ++ " has been completed twice"
  | malformed (.descriptor fault) => fault.message
  | malformed fault => "Malformed envelope: " ++ fault.message
  | trailingBytes count =>
    toString count ++ " trailing bytes after the last row of the page"
  | unexpected response => "Unexpected response: " ++ response

def Violation.label : Violation → String
  | completedTwice _ => "DoubleCompletion"
  | malformed (.descriptor fault) => fault.label
  | malformed fault => "MalformedEnvelope." ++ fault.label
  | trailingBytes _ => "TrailingRowBytes"
  | unexpected _ => "UnexpectedResponse"

instance : Fault Violation := ⟨Violation.label, Violation.message⟩

/-- Why bytes cannot be exchanged any more. -/
inductive TransportFault where
  | closedByPeer
  | notReceived
  | malformed (fault : FrameFault)
  deriving DecidableEq

/-- What a fault of the incoming frames is to the transport. -/
def TransportFault.ofFrame (fault : FrameFault) : TransportFault :=
  if fault.isEndOfInput then closedByPeer else malformed fault

/-- Why a request has no answer. -/
inductive CallFault where
  | invalid (fault : RequestFault)
  | noStream
  | closed
  | transport (fault : TransportFault)
  | violation (v : Violation)
  deriving DecidableEq

inductive ExecutionFault where
  | call (fault : CallFault)
  | database (e : DatabaseError)
  | row (fault : RowDecodeFault)
  | invalidKeyspace (e : InvalidKeyspace)

inductive KeyspaceFault where
  | alreadyExists (keyspace : String) (e : DatabaseError)
  | doesNotExist (keyspace : String) (e : DatabaseError)
  | other (fault : ExecutionFault)

/-- Why a session cannot be opened. -/
inductive OpeningFault where
  | noContactPoint
  | authenticationRequired (authenticator : String)
  | invalid (fault : RequestFault)
  | database (e : DatabaseError)
  | transport (fault : TransportFault)
  | keyspace (fault : KeyspaceFault)

def TransportFault.message : TransportFault → String
  | closedByPeer => WireFault.endOfInput.message
  | notReceived => "broken pipe"
  | malformed fault => fault.message

def CallFault.message : CallFault → String
  | invalid fault => fault.message
  | noStream => "No stream is available, request has not been sent"
  | closed => "Connection is closed"
  | transport fault => "Transport failure: " ++ fault.message
  | violation v => v.message

def ExecutionFault.message : ExecutionFault → String
  | call fault => fault.message
  | database e => "Database error: " ++ e.error.text
  | row fault => fault.message
  | invalidKeyspace e => e.message

def KeyspaceFault.message : KeyspaceFault → String
  | alreadyExists keyspace _ => "Keyspace `" ++ keyspace ++ "` already exists"
  | doesNotExist keyspace _ => "Keyspace `" ++ keyspace ++ "` does not exist"
  | other fault => fault.message

def OpeningFault.message : OpeningFault → String
  | noContactPoint => "No contact point has been provided"
  | authenticationRequired authenticator =>
    "Authentication is required with authenticator " ++ authenticator ++ ", which is not supported"
  | invalid fault => fault.message
  | database e => "Database error: " ++ e.error.text
  | transport fault => "IO error: " ++ fault.message
  | keyspace fault => fault.message

/-- The name of the failure of reading or writing. -/
def TransportFault.label : TransportFault → String
  | closedByPeer => "UnexpectedEof"
  | notReceived => "BrokenPipe"
  | malformed _ => "InvalidData"

def CallFault.label : CallFault → String
  | invalid fault => "InvalidRequest." ++ fault.label
  | noStream => "NoStreamAvailable"
  | closed => "ConnectionClosed"
  | transport fault => "TransportFailure." ++ fault.label
  | violation v => "ProtocolViolation." ++ v.label

def ExecutionFault.label : ExecutionFault → String
  | call fault => fault.label
  | database _ => "Database"
  | row fault => fault.label
  | invalidKeyspace e => e.label

def KeyspaceFault.label : KeyspaceFault → String
  | alreadyExists .. => "AlreadyExists"
  | doesNotExist .. => "DoesNotExist"
  | other fault => fault.label

def OpeningFault.label : OpeningFault → String
  | noContactPoint => "NoContactPoint"
  | authenticationRequired _ => "AuthenticationRequired"
  | invalid fault => "Connection.InvalidRequest." ++ fault.label
  | database _ => "Connection.Database"
  | transport (.malformed fault) => "Connection." ++ fault.label
  | transport fault => "Connection.Io." ++ fault.label
  | keyspace fault => "Keyspace." ++ fault.label

def EncodeFault.category : EncodeFault → Category
  | registry _ => .unsupportedType
  | tooLarge _ | cell (.tooLarge _) => .valueTooLarge
  | _ => .misuse

def RequestFault.category : RequestFault → Category
  | tooLarge _ | frameTooBig _ => .valueTooLarge
  | values (.encode _ fault) => fault.category
  | values _ => .misuse

def CallFault.category : CallFault → Category
  | invalid fault => fault.category
  | noStream | closed | transport _ => .transport
  | violation _ => .protocol

def ExecutionFault.category : ExecutionFault → Category
  | call fault => fault.category
  | database e => if e.error.known? = some .alreadyExists then .alreadyExists else .database
  | row ⟨_, _, _, .registry _⟩ => .unsupportedType
  | row _ => .protocol
  | invalidKeyspace _ => .misuse

def KeyspaceFault.category : KeyspaceFault → Category
  | alreadyExists .. => .alreadyExists
  | doesNotExist .. => .doesNotExist
  | other fault => fault.category

end CqlClient
