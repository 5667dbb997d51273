/-!
Operation codes of frames.
-/

namespace CqlClient

inductive Opcode where
  | error | startup | ready | authenticate | options | supported | query | result | prepare
  | execute | register | event | batch | authChallenge | authResponse | authSuccess
  deriving DecidableEq

namespace Opcode

def all : List Opcode :=
  [error, startup, ready, authenticate, options, supported, query, result, prepare, execute,
    register, event, batch, authChallenge, authResponse, authSuccess]

def code : Opcode → UInt8
  | error => 0x00
  | startup => 0x01
  | ready => 0x02
  | authenticate => 0x03
  | options => 0x05
  | supported => 0x06
  | query => 0x07
  | result => 0x08
  | prepare => 0x09
  | execute => 0x0A
  | register => 0x0B
  | event => 0x0C
  | batch => 0x0D
  | authChallenge => 0x0E
  | authResponse => 0x0F
  | authSuccess => 0x10

def name : Opcode → String
  | error => "Error"
  | startup => "Startup"
  | ready => "Ready"
  | authenticate => "Authenticate"
  | options => "Options"
  | supported => "Supported"
  | query => "Query"
  | result => "Result"
  | prepare => "Prepare"
  | execute => "Execute"
  | register => "Register"
  | event => "Event"
  | batch => "Batch"
  | authChallenge => "AuthChallenge"
  | authResponse => "AuthResponse"
  | authSuccess => "AuthSuccess"

def ofCode? (code : UInt8) : Option Opcode := all.find? (·.code == code)

theorem ofCode?_code (opcode : Opcode) : ofCode? opcode.code = some opcode := by
  cases opcode <;> rfl

end Opcode

end CqlClient
