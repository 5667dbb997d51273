import CqlClient.Row.Columns
import CqlClient.Supported

/-!
Results of statements: rows with or without their columns, prepared statements, and news of
keyspaces and schemas.
-/

namespace CqlClient

open FrameReader (wire)

/-- What comes before the rows of a page. -/
structure Metadata where
  columnCount : UInt32
  pagingState : Option Bytes
  /-- The columns, unless the server was asked to leave them out. -/
  columns : Option Columns

namespace Metadata

/-- The table that all columns share, if a flag says that there is one. -/
def readShared (flags : UInt32) : FrameReader (Option (String × String)) := do
  if flags.toNat.testBit 0 then return some (← wire Wire.string, ← wire Wire.string)
  else return none

/-- The state from which the next page is asked for, if a flag says that there is one. -/
def readState (flags : UInt32) : FrameReader (Option Bytes) :=
  if flags.toNat.testBit 1 then wire Wire.optionalBytes else pure none

def read (limit : Nat) : FrameReader Metadata := do
  let flags ← wire Wire.uint32
  let columnCount ← wire Wire.uint32
  let pagingState ← readState flags
  if flags.toNat.testBit 2 then return ⟨columnCount, pagingState, none⟩
  let shared ← readShared flags
  let columns ← Columns.read limit columnCount.toNat shared
  return ⟨columnCount, pagingState, some columns⟩

end Metadata

/-- A page of rows; the cells are decoded later. -/
structure Rows where
  metadata : Metadata
  count : Nat
  content : Bytes

/-- Reads the page that starts at an offset of a body. The cells are found by their own offset. -/
def Rows.ofBody (limit : Nat) (body : Bytes) (offset : Nat) : Except FrameFault Rows :=
  let rows : FrameReader Rows := do
    let metadata ← Metadata.read limit
    let count ← wire Wire.uint32
    let rowsOffset := body.length - (← Reader.rest).length
    return ⟨metadata, count.toNat, body.drop rowsOffset⟩
  rows.outcome (body.drop offset)

/-- A statement that a server has prepared. -/
structure Prepared where
  id : Bytes
  /-- The bind markers that make up the partition key, in its order. -/
  partitionKey : List UInt16
  markers : Columns
  result : Option Columns
  isLwt : Bool

namespace Prepared

def readKeyIndex : FrameReader UInt16 := do
  let index ← wire Wire.int16
  if index < 0 then throw (.wire .numberTooSmall) else return index.toUInt16

def read (extensions : Extensions) (limit : Nat) : FrameReader Prepared := do
  let id ← wire Wire.shortBytes
  let flags ← wire Wire.uint32
  let columnCount ← wire Wire.uint32
  let keyCount ← wire Wire.int32
  let partitionKey ← Reader.times keyCount.toInt.toNat readKeyIndex
  let shared ← Metadata.readShared flags
  let markers ← Columns.read limit columnCount.toNat shared
  let metadata ← Metadata.read limit
  let isLwt := extensions.lwtMask.any fun mask => flags &&& mask != 0
  return ⟨id, partitionKey, markers, metadata.columns, isLwt⟩

end Prepared

inductive ChangeKind where
  | created | updated | dropped
  deriving DecidableEq

/-- What of a keyspace has changed. -/
inductive ChangeTarget where
  | keyspace
  | table (name : String)
  | type (name : String)
  | function (name : String) (arguments : List String)
  | aggregate (name : String) (arguments : List String)
  | other (target : String)
  deriving DecidableEq

structure SchemaChange where
  kind : ChangeKind
  keyspace : String
  target : ChangeTarget
  deriving DecidableEq

namespace SchemaChange

def readKind : FrameReader ChangeKind := do
  match ← wire Wire.string with
  | "CREATED" => return .created
  | "UPDATED" => return .updated
  | "DROPPED" => return .dropped
  | _ => throw .schemaChangeKind

def readTarget : String → FrameReader ChangeTarget
  | "KEYSPACE" => return .keyspace
  | "TABLE" => return .table (← wire Wire.string)
  | "TYPE" => return .type (← wire Wire.string)
  | "FUNCTION" => return .function (← wire Wire.string) (← wire Wire.stringList)
  | "AGGREGATE" => return .aggregate (← wire Wire.string) (← wire Wire.stringList)
  | target => return .other target

def read : FrameReader SchemaChange := do
  let kind ← readKind
  let target ← wire Wire.string
  let keyspace ← wire Wire.string
  return ⟨kind, keyspace, ← readTarget target⟩

end SchemaChange

inductive Result where
  | void
  | rows (rows : Rows)
  | setKeyspace (keyspace : String)
  | prepared (prepared : Prepared)
  | schemaChange (change : SchemaChange)

namespace Result

/-- Reads the result that starts at an offset of a body: a page starts behind its kind. -/
def ofBody (extensions : Extensions) (limit : Nat) (body : Bytes) (offset : Nat) :
    Except FrameFault Result :=
  let result : FrameReader Result := do
    match ← wire Wire.uint32 with
    | 1 => return .void
    | 2 => return .rows (← Reader.ofExcept (Rows.ofBody limit body (offset + 4)))
    | 3 => return .setKeyspace (← wire Wire.string)
    | 4 => return .prepared (← Prepared.read extensions limit)
    | 5 => return .schemaChange (← SchemaChange.read)
    | kind => throw (.resultKind kind)
  result.outcome (body.drop offset)

/-- What a result is called in messages. -/
def name : Result → String
  | void => "Void"
  | rows _ => "Rows"
  | setKeyspace _ => "SetKeyspace"
  | prepared _ => "Prepared"
  | schemaChange _ => "SchemaChange"

end Result

end CqlClient
