import CqlClient.CqlType
import CqlClient.Fault
import CqlClient.Text.Number
import CqlClient.Text.Pieces
import CqlClient.Wire

/-!
Marshal class names, by which servers describe custom types. Native classes, collections and
vectors are understood; any other name stays an opaque custom type.
-/

namespace CqlClient

/-- Why a type description is refused. -/
inductive DescriptorFault where
  | depthExceeded (limit : Nat)
  | unknownCode (code : UInt16)
  | invalidClass (className : String)
  | truncated (fault : WireFault)
  deriving DecidableEq

def DescriptorFault.message : DescriptorFault → String
  | depthExceeded limit => "Type nesting exceeds the maximum depth of " ++ toString limit
  | unknownCode code => "Unknown type code " ++ Text.hex 4 code.toNat
  | invalidClass className => "Invalid custom type `" ++ className ++ "`"
  | truncated fault => "Truncated or invalid metadata: " ++ fault.message

def DescriptorFault.label : DescriptorFault → String
  | depthExceeded _ => "MalformedSchema.DepthExceeded"
  | unknownCode _ => "MalformedSchema.UnknownTypeCode"
  | invalidClass _ => "MalformedSchema.InvalidCustomType"
  | truncated fault => "MalformedSchema.Truncated." ++ fault.label

instance : Fault DescriptorFault := ⟨DescriptorFault.label, DescriptorFault.message⟩

/-- How deep type descriptions may be nested when nothing else is asked for. -/
def defaultDepthLimit : Nat := 64

namespace ClassName

def packagePrefix : List Char := "org.apache.cassandra.db.marshal.".toList

def dropPackage (cs : List Char) : List Char :=
  if packagePrefix.isPrefixOf cs then cs.drop packagePrefix.length else cs

def native? : String → Option Native
  | "AsciiType" => some .ascii
  | "BooleanType" => some .boolean
  | "BytesType" => some .blob
  | "CounterColumnType" => some .counter
  | "DecimalType" => some .decimal
  | "DoubleType" => some .double
  | "DurationType" => some .duration
  | "FloatType" => some .float
  | "InetAddressType" => some .inet
  | "Int32Type" => some .int
  | "IntegerType" => some .varint
  | "LongType" => some .bigint
  | "SimpleDateType" => some .date
  | "ShortType" => some .smallint
  | "ByteType" => some .tinyint
  | "UTF8Type" => some .text
  | "UUIDType" => some .uuid
  | "TimeUUIDType" => some .timeuuid
  | "TimeType" => some .time
  | "TimestampType" => some .timestamp
  | "DateType" => some .timestamp
  | _ => none

/-- The parameters of a class, without the blanks around them. -/
def parameters (cs : List Char) : List (List Char) :=
  (Text.pieces '(' ')' cs).map Text.trimBlank

/-- Parses a class name; `room` levels may still be opened. -/
def parseWithin (limit : Nat) : Nat → List Char → Except DescriptorFault CqlType
  | 0, _ => .error (.depthExceeded limit)
  | room + 1, className =>
    let opaqueClass := String.ofList className
    let nested := parseWithin limit room
    match Text.splitOuter '(' (dropPackage (Text.trimBlank className)) with
    | (name, none) =>
      .ok (match native? (String.ofList name) with
        | some type => .native type
        | none => .custom opaqueClass)
    | (outer, some inner) =>
      match Text.withoutClosing? ')' inner with
      | none => .error (.invalidClass opaqueClass)
      | some inner =>
        match String.ofList outer, parameters inner with
        | "VectorType", [element, dimensions] => do
          let element ← nested element
          match Text.unsigned? 0xFFFF (Text.trimBlank dimensions) with
          | some n => return .vector element (UInt16.ofNat n)
          | none => throw (.invalidClass opaqueClass)
        | "VectorType", _ => .error (.invalidClass opaqueClass)
        | "ListType", [element] => return .list (← nested element)
        | "SetType", [element] => return .set (← nested element)
        | "MapType", [key, value] => return .map (← nested key) (← nested value)
        | "FrozenType", [inner] => nested inner
        | _, _ => .ok (.custom opaqueClass)

/-- Parses a class name found at a depth. -/
def parse (limit depth : Nat) (className : String) : Except DescriptorFault CqlType :=
  parseWithin limit (limit + 1 - depth) className.toList

end ClassName

end CqlClient
