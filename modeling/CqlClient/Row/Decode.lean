import CqlClient.Codec.Decode
import CqlClient.Fault
import CqlClient.Row.Columns

/-!
Rows of results. All cells of a row are framed before any is decoded, so a row cut short is refused
as a whole; the first column that fails stands for the row.
-/

namespace CqlClient

/-- The values of a row, in the order of its columns; none is null. -/
abbrev Row := List (Option Value)

/-- Why a row is refused, at its first failing column. -/
structure RowDecodeFault where
  index : Nat
  name : String
  type : CqlType
  fault : DecodeFault

def RowDecodeFault.message (e : RowDecodeFault) : String :=
  "Cannot decode column " ++ toString e.index ++ " `" ++ e.name ++ "` of type " ++ e.type.text ++
    ": " ++ e.fault.message

def RowDecodeFault.label (e : RowDecodeFault) : String := "Decode." ++ e.fault.label

instance : Fault RowDecodeFault := ⟨RowDecodeFault.label, RowDecodeFault.message⟩

abbrev RowReader := Reader RowDecodeFault

namespace Row

def refuse (index : Nat) (column : Column) (fault : DecodeFault) : RowDecodeFault :=
  ⟨index, column.name, column.type, fault⟩

/-- The cells of a row, none being null. -/
def frameCells : Columns → Nat → List (Column × Option Bytes) →
    RowReader (List (Column × Option Bytes))
  | [], _, done => pure done.reverse
  | column :: columns, index, done => do
    let cell ← Wire.optionalBytes.mapError fun fault => refuse index column (.invalid (.wire fault))
    frameCells columns (index + 1) ((column, cell) :: done)

/-- A cell without any byte is null, unless its type encodes a value that way. -/
def decodeCell (r : Registry) (type : CqlType) : Option Bytes → Except DecodeFault (Option Value)
  | none => .ok none
  | some bytes =>
    if bytes.isEmpty && !type.code.hasEmptyEncoding then .ok none
    else some <$> r.decode type bytes

def decodeCells (r : Registry) : List (Column × Option Bytes) → Nat → Row →
    Except RowDecodeFault Row
  | [], _, done => .ok done.reverse
  | (column, cell) :: cells, index, done =>
    match decodeCell r column.type cell with
    | .ok v => decodeCells r cells (index + 1) (v :: done)
    | .error fault => .error (refuse index column fault)

/-- Reads one row. -/
def read (r : Registry) (columns : Columns) : RowReader Row := do
  let cells ← frameCells columns 0 []
  Reader.ofExcept (decodeCells r cells 0 [])

/-- Reads at most `count` rows, until one fails; what is left after them comes last. -/
def readMany (r : Registry) (columns : Columns) : Nat → Bytes →
    List (Except RowDecodeFault Row) → List (Except RowDecodeFault Row) × Bytes
  | 0, bytes, done => (done.reverse, bytes)
  | n + 1, bytes, done =>
    match read r columns bytes with
    | .ok row rest => readMany r columns n rest (.ok row :: done)
    | .error fault rest => ((.error fault :: done).reverse, rest)

end Row

end CqlClient
