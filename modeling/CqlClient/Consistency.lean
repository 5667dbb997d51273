/-!
Consistency levels of requests. Serial levels apply to the read part of conditional writes.
-/

namespace CqlClient

inductive Consistency where
  | any | one | two | three | quorum | all | localQuorum | eachQuorum | localOne
  deriving DecidableEq, Inhabited

inductive SerialConsistency where
  | serial | localSerial
  deriving DecidableEq

/-- A level as errors report it, of either kind. -/
inductive AnyConsistency where
  | regular (level : Consistency)
  | serial (level : SerialConsistency)
  deriving DecidableEq

namespace Consistency

/-- All levels, in the order of their codes. -/
def levels : List Consistency :=
  [any, one, two, three, quorum, all, localQuorum, eachQuorum, localOne]

def code : Consistency → UInt16
  | any => 0x0
  | one => 0x1
  | two => 0x2
  | three => 0x3
  | quorum => 0x4
  | all => 0x5
  | localQuorum => 0x6
  | eachQuorum => 0x7
  | localOne => 0xA

def name : Consistency → String
  | any => "Any"
  | one => "One"
  | two => "Two"
  | three => "Three"
  | quorum => "Quorum"
  | all => "All"
  | localQuorum => "LocalQuorum"
  | eachQuorum => "EachQuorum"
  | localOne => "LocalOne"

def ofCode? (code : UInt16) : Option Consistency := levels.find? (·.code == code)

theorem ofCode?_code (level : Consistency) : ofCode? level.code = some level := by
  cases level <;> rfl

end Consistency

namespace SerialConsistency

def code : SerialConsistency → UInt16
  | serial => 0x8
  | localSerial => 0x9

def name : SerialConsistency → String
  | serial => "Serial"
  | localSerial => "LocalSerial"

def ofCode? (code : UInt16) : Option SerialConsistency :=
  [serial, localSerial].find? (·.code == code)

theorem ofCode?_code (level : SerialConsistency) : ofCode? level.code = some level := by
  cases level <;> rfl

end SerialConsistency

namespace AnyConsistency

def code : AnyConsistency → UInt16
  | regular level => level.code
  | serial level => level.code

def name : AnyConsistency → String
  | regular level => level.name
  | serial level => level.name

def ofCode? (code : UInt16) : Option AnyConsistency :=
  match Consistency.ofCode? code with
  | some level => some (regular level)
  | none => (SerialConsistency.ofCode? code).map serial

end AnyConsistency

end CqlClient
