import CqlClient.Fault
import CqlClient.Value
import CqlClient.Wire

/-!
What can go wrong between values and bytes, one constructor a cause.
-/

namespace CqlClient

inductive RegistryFault where
  | unsupportedType (type : String)
  | missingDescriptor (code : TypeCode)
  deriving DecidableEq

def RegistryFault.message : RegistryFault → String
  | unsupportedType type => "No codec registered for type " ++ type
  | missingDescriptor code =>
    "Type " ++ code.name ++ " cannot be decoded without its type descriptor"

def RegistryFault.label : RegistryFault → String
  | unsupportedType _ => "UnsupportedType"
  | missingDescriptor _ => "MissingTypeDescriptor"

instance : Fault RegistryFault := ⟨RegistryFault.label, RegistryFault.message⟩

/-- Why bytes are no encoding of a value. -/
inductive ValueFault where
  | wire (fault : WireFault)
  | wrongLength (expected : Nat) (type : String) (found : Nat)
  | nonAscii
  | inetLength (found : Nat)
  | timeOutOfDay (nanoseconds : Int64)
  | emptyVarint
  | shortDecimal (found : Nat)
  | trailing (found : Nat) (what : String)
  | negativeCount (count : Int32)
  deriving DecidableEq

def ValueFault.message : ValueFault → String
  | wire fault => fault.message
  | wrongLength expected type found =>
    "Expected " ++ toString expected ++ " bytes for " ++ type ++ ", found " ++ toString found
  | nonAscii => "Non ASCII characters in ascii value"
  | inetLength found => "Invalid inet length " ++ toString found
  | timeOutOfDay nanoseconds => "Time " ++ toString nanoseconds.toInt ++ " out of range"
  | emptyVarint => "Empty varint"
  | shortDecimal found => "Decimal too short (" ++ toString found ++ " bytes)"
  | trailing found what => toString found ++ " trailing bytes after " ++ what
  | negativeCount count => "Negative count " ++ toString count.toInt

inductive DecodeFault where
  | registry (fault : RegistryFault)
  | invalid (fault : ValueFault)
  | nullElement
  /-- The program has given up while it read. -/
  | panic (cause : Panic)
  deriving DecidableEq

def DecodeFault.message : DecodeFault → String
  | registry fault => fault.message
  | invalid fault => "Invalid value: " ++ fault.message
  | nullElement => "Unexpected null value in a collection"
  | panic cause => cause.message

def DecodeFault.label : DecodeFault → String
  | registry fault => fault.label
  | invalid (.wire fault) => "Invalid." ++ fault.label
  | invalid _ => "Invalid.Io.InvalidData"
  | nullElement => "NullInCollection"
  | panic cause => Fault.label cause

instance : Fault DecodeFault := ⟨DecodeFault.label, DecodeFault.message⟩

/-- Misuse of the writer of one cell. -/
inductive CellFault where
  | alreadyWritten
  | tooLarge (size : ValueTooLarge)
  | sizeMismatch (declared written : Nat)
  deriving DecidableEq

def CellFault.message : CellFault → String
  | alreadyWritten => "Cell has already been written"
  | tooLarge size => size.message
  | sizeMismatch declared written =>
    "Cell value declared " ++ toString declared ++ " bytes but " ++ toString written ++
      " were appended"

def CellFault.label : CellFault → String
  | alreadyWritten => "AlreadyConsumed"
  | tooLarge _ => "ValueTooLarge"
  | sizeMismatch .. => "SizeMismatch"

instance : Fault CellFault := ⟨CellFault.label, CellFault.message⟩

inductive EncodeFault where
  | registry (fault : RegistryFault)
  | tooLarge (size : ValueTooLarge)
  | typeMismatch (expected : TypeCode) (found : String)
  | wrongElementCount (expected found : Nat)
  | nullElement (collection : TypeCode)
  | unknownField (typeName field : String)
  | cell (fault : CellFault)
  /-- The program has given up while it wrote. -/
  | panic (cause : Panic)
  deriving DecidableEq

def EncodeFault.message : EncodeFault → String
  | registry fault => fault.message
  | tooLarge size => size.message
  | typeMismatch expected found => "Cannot encode a " ++ found ++ " value as " ++ expected.name
  | wrongElementCount expected found =>
    "Expected " ++ toString expected ++ " elements, found " ++ toString found
  | nullElement collection => "Null is not allowed inside a " ++ collection.name
  | unknownField typeName field => "Unknown field " ++ field ++ " for udt " ++ typeName
  | cell fault => fault.message
  | panic cause => cause.message

def EncodeFault.label : EncodeFault → String
  | registry fault => fault.label
  | tooLarge _ => "ValueTooLarge"
  | typeMismatch .. => "TypeMismatch"
  | wrongElementCount .. => "WrongElementCount"
  | nullElement _ => "NullInCollection"
  | unknownField .. => "UnknownUdtField"
  | cell fault => fault.label
  | panic cause => Fault.label cause

instance : Fault EncodeFault := ⟨EncodeFault.label, EncodeFault.message⟩

end CqlClient
