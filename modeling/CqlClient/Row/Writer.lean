import CqlClient.Codec.Encode
import CqlClient.Fault
import CqlClient.Row.Bound

/-!
Writing rows of bound values cell by cell, all into the one buffer of the row. A cell is written at
most once; a write that fails, or that is given up, leaves the row as it was; a cell given up
unwritten makes the row unusable.
-/

namespace CqlClient

inductive RowFault where
  | notFullyWritten (pending : Nat)
  | tooManyValues (count : Nat)
  deriving DecidableEq

def RowFault.message : RowFault → String
  | notFullyWritten pending =>
    "Row finalized with " ++ toString pending ++ " cell writer(s) never written"
  | tooManyValues count =>
    "Too many values in a row (" ++ toString count ++ "), maximum is 65535"

def RowFault.label : RowFault → String
  | notFullyWritten _ => "RowNotFullyWritten"
  | tooManyValues _ => "TooManyValues"

instance : Fault RowFault := ⟨RowFault.label, RowFault.message⟩

structure RowWriter where
  /-- Two bytes kept for the count, then the cells written so far as they are sent. -/
  buffer : Array UInt8
  /-- The number of cells written so far. -/
  valueCount : Nat
  /-- The number of cells given up unwritten. -/
  pending : Nat

/-- The writer of one cell, which has the row to itself until it is closed. -/
structure CellWriter where
  row : RowWriter
  consumed : Bool

/-- A value appended piece by piece, behind a place kept for its length. -/
structure ValueBuilder where
  cell : CellWriter
  /-- Where the place kept for the length starts. -/
  start : Nat
  declared : Option Nat

/-- The buffer with `bytes` in place of as many bytes from `start` on. -/
def overwrite (buffer : Array UInt8) (start : Nat) : Bytes → Array UInt8
  | [] => buffer
  | b :: bytes => overwrite (buffer.setIfInBounds start b) (start + 1) bytes

/-- The length of a value, if its prefix can announce it. -/
def checkSize (size : Nat) : Except CellFault Int32 :=
  if size ≤ Wire.maxInt32 then .ok (Int32.ofNat size) else .error (.tooLarge ⟨size⟩)

namespace RowWriter

def new : RowWriter := ⟨#[0, 0], 0, 0⟩

def append (row : RowWriter) (bytes : Bytes) : RowWriter :=
  { row with buffer := row.buffer ++ bytes }

def cell (row : RowWriter) : CellWriter := ⟨row, false⟩

def finalize (row : RowWriter) : Except RowFault BoundRow :=
  let count := row.valueCount
  if row.pending > 0 then .error (.notFullyWritten row.pending)
  else if count > Wire.maxUInt16 then .error (.tooManyValues count)
  else
    let prefixed := overwrite row.buffer 0 (Bytes.ofUInt16 (UInt16.ofNat count))
    .ok ⟨prefixed.toList, UInt16.ofNat count⟩

end RowWriter

/-- A write to a cell. What it leaves of the cell is known when it fails, too. -/
abbrev CellWrite (ε : Type) := EStateM ε CellWriter

namespace ValueBuilder

/-- The number of bytes appended so far. -/
def written (b : ValueBuilder) : Nat := b.cell.row.buffer.size - b.start - 4

def append (b : ValueBuilder) (bytes : Bytes) : ValueBuilder :=
  { b with cell.row := b.cell.row.append bytes }

/-- Declares the final size of the value. -/
def setSize (size : Nat) : EStateM CellFault ValueBuilder Unit := fun b =>
  match checkSize size with
  | .ok _ => .ok () { b with declared := some size }
  | .error fault => .error fault b

/-- Appends bytes, unless they pass the declared size or the limit of any value. -/
def appendBytes (bytes : Bytes) : EStateM CellFault ValueBuilder Unit := fun b =>
  let size := b.written + bytes.length
  match b.declared.filter (size > ·) with
  | some declared => .error (.sizeMismatch declared size) b
  | none =>
    match checkSize size with
    | .ok _ => .ok () (b.append bytes)
    | .error fault => .error fault b

/-- The cell after the value is given up: nothing that was appended stays. -/
def drop (b : ValueBuilder) : CellWriter :=
  { b.cell with row.buffer := b.cell.row.buffer.shrink b.start }

/-- Puts the length in its place, which makes the value a cell of the row. -/
def commit (b : ValueBuilder) (length : Int32) : CellWriter :=
  let row := b.cell.row
  ⟨{ row with
      buffer := overwrite row.buffer b.start (Bytes.ofInt32 length)
      valueCount := row.valueCount + 1 }, true⟩

/-- Ends the value, which is given up unless it has the declared size. -/
def finish (b : ValueBuilder) : EStateM.Result CellFault CellWriter Unit :=
  let size := b.written
  match b.declared.filter (· ≠ size) with
  | some declared => .error (.sizeMismatch declared size) b.drop
  | none =>
    match checkSize size with
    | .ok length => .ok () (b.commit length)
    | .error fault => .error fault b.drop

end ValueBuilder

namespace CellWriter

/-- The row after the cell is given up or done with. -/
def close (cell : CellWriter) : RowWriter :=
  if cell.consumed then cell.row else { cell.row with pending := cell.row.pending + 1 }

def checkFresh : CellWrite CellFault Unit := do
  if (← get).consumed then throw .alreadyWritten

/-- Writes the length of a cell, or what stands in its place, which makes it a cell of the row. -/
def writeLength (length : Int32) : CellWrite CellFault Unit :=
  modify fun cell =>
    let row := cell.row.append (Bytes.ofInt32 length)
    ⟨{ row with valueCount := row.valueCount + 1 }, true⟩

def writeNull : CellWrite CellFault Unit := do
  checkFresh
  writeLength (-1)

def writeUnset : CellWrite CellFault Unit := do
  checkFresh
  writeLength (-2)

def writeValue (bytes : Bytes) : CellWrite CellFault Unit := do
  checkFresh
  match checkSize bytes.length with
  | .ok length =>
    writeLength length
    modify fun cell => { cell with row := cell.row.append bytes }
  | .error fault => throw fault

/-- Starts a value, its length being one that no finished value has. -/
def beginValue (cell : CellWriter) : Except CellFault ValueBuilder :=
  if cell.consumed then .error .alreadyWritten
  else
    let start := cell.row.buffer.size
    .ok ⟨{ cell with row := cell.row.append (Bytes.ofInt32 (-3)) }, start, none⟩

/-- Writes a bound value. `encode` gives the bytes it appends, those of a failure half way
through the value being appended too, and how it ends. -/
def writeBound (encode : Value → Bytes × Except EncodeFault Unit) :
    Bound Value → CellWrite EncodeFault Unit
  | .null => writeNull.adaptExcept .cell
  | .unset => writeUnset.adaptExcept .cell
  | .value v => fun cell =>
    match cell.beginValue with
    | .error fault => .error (.cell fault) cell
    | .ok b =>
      let (bytes, ending) := encode v
      let b := b.append bytes
      match ending with
      | .error fault => .error fault b.drop
      | .ok () =>
        match b.finish with
        | .ok () cell => .ok () cell
        | .error fault cell => .error (.cell fault) cell

end CellWriter

/-- A value encoded by a type, or else by what it is itself: the bytes and how it ended. -/
def Registry.append (r : Registry) (type : Option CqlType) (v : Value) :
    Bytes × Except EncodeFault Unit :=
  match r.encode v type with
  | .ok bytes => (bytes, .ok ())
  | .error fault => ([], .error fault)

/-- Why bound values make no row. -/
inductive BindFault where
  | wrongCount (expected found : Nat)
  | encode (index : Nat) (fault : EncodeFault)
  | row (fault : RowFault)
  deriving DecidableEq

def BindFault.message : BindFault → String
  | wrongCount expected found =>
    "Expected " ++ toString expected ++ " bound values, found " ++ toString found
  | encode index fault => "Cannot serialize value " ++ toString index ++ ": " ++ fault.message
  | row fault => fault.message

def BindFault.label : BindFault → String
  | wrongCount .. => "WrongValueCount"
  | encode index fault => "Encode." ++ toString index ++ "." ++ fault.label
  | row fault => fault.label

instance : Fault BindFault := ⟨BindFault.label, BindFault.message⟩

namespace BoundRow

def writeAll (r : Registry) :
    RowWriter → Nat → List (Bound Value × Option CqlType) → Except BindFault RowWriter
  | row, _, [] => .ok row
  | row, index, (bound, type) :: rest =>
    match CellWriter.writeBound (r.append type) bound row.cell with
    | .error fault _ => .error (.encode index fault)
    | .ok () cell => writeAll r cell.close (index + 1) rest

def ofTyped (r : Registry) (values : List (Bound Value × Option CqlType)) :
    Except BindFault BoundRow := do
  let row ← writeAll r .new 0 values
  row.finalize.mapError .row

/-- The row of values written by what they are themselves. -/
def ofValues (r : Registry) (values : List (Bound Value)) : Except BindFault BoundRow :=
  ofTyped r (values.map (·, none))

/-- The row of values written by the types of their columns, one value a column. -/
def bind (r : Registry) (values : List (Bound Value)) (types : List CqlType) :
    Except BindFault BoundRow :=
  if types.length = values.length then ofTyped r (values.zip (types.map some))
  else .error (.wrongCount types.length values.length)

end BoundRow

end CqlClient
