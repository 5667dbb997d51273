import CqlClient.Session.Config
import CqlClient.Session.Fault
import CqlClient.Sharding

/-!
The exchange that opens a connection: what the server supports is asked for first, then the
connection is started with options that acknowledge the extensions found. Both requests go on
stream 0, each is answered before anything else is sent, and no byte after the second answer is
read.
-/

namespace CqlClient

/-- How far the exchange is. -/
inductive Handshake where
  | asked
  /-- The connection is being started with a server that supports this. -/
  | starting (s : Supported)

namespace Handshake

/-- What the bytes that have come lead to. -/
inductive Step where
  /-- More bytes have to come. -/
  | wait
  /-- A frame is sent, and the exchange goes on after it. -/
  | send (frame : Bytes) (next : Handshake) (rest : Bytes)
  | opened (s : Supported) (rest : Bytes)
  | failed (fault : OpeningFault)

/-- The start-up options: those of the configuration, then the acknowledgements over them. -/
def startupOptions (config : ConnectionConfig) (s : Supported) : List (String × String) :=
  (Extensions.ofSupported s).startupOptions.foldl (fun options (key, value) =>
    setEntry options key value) config.startupOptions

/-- The first frame. -/
def optionsFrame : Except RequestFault Bytes := Request.options.frame false 0

def malformed (fault : FrameFault) : OpeningFault := .transport (.ofFrame fault)

/-- The body that an envelope answers with. -/
def answer (e : Envelope) : Except OpeningFault ResponseBody :=
  if e.stream ≠ 0 then .error (malformed .streamMismatch)
  else match Response.ofEnvelope .none defaultDepthLimit e with
    | .error fault => .error (malformed fault)
    | .ok response =>
      match response.ok with
      | .error e => .error (.database e)
      | .ok response => .ok response.body

def onAnswer (config : ConnectionConfig) (h : Handshake) (body : ResponseBody) (rest : Bytes) :
    Step :=
  match h, body with
  | asked, .supported s =>
    match (Request.startup (startupOptions config s)).frame false 0 with
    | .ok frame => .send frame (starting s) rest
    | .error fault => .failed (.invalid fault)
  | starting s, .ready => .opened s rest
  | starting _, .authenticate authenticator => .failed (.authenticationRequired authenticator)
  | _, body => .failed (malformed (.unexpectedResponse body.name))

/-- Reads an answer if it has come completely. -/
def step (config : ConnectionConfig) (h : Handshake) (received : Bytes) (ended : Bool) : Step :=
  match Envelope.next received with
  | .incomplete => if ended then .failed (.transport .closedByPeer) else .wait
  | .malformed fault => .failed (malformed fault)
  | .frame e rest =>
    match answer e with
    | .error fault => .failed fault
    | .ok body => h.onAnswer config body rest

end Handshake

end CqlClient
