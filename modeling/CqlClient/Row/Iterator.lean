import CqlClient.Response.Result
import CqlClient.Row.Decode

/-!
Rows of a page, read one after another. Bytes that are left after the last row are for the reader to
judge.
-/

namespace CqlClient

structure RowIterator where
  registry : Registry
  columns : Columns
  remaining : Nat
  content : Bytes

namespace RowIterator

/-- Reads a row, if one is left. After a row that cannot be read none is, since the place of the
next one is lost. -/
def next (it : RowIterator) : Option (Except RowDecodeFault Row) × RowIterator :=
  match it.remaining with
  | 0 => (none, it)
  | remaining + 1 =>
    match Row.read it.registry it.columns it.content with
    | .error fault rest => (some (.error fault), { it with content := rest, remaining := 0 })
    | .ok row rest => (some (.ok row), { it with content := rest, remaining })

/-- Reads at most that many rows, behind those already read. -/
def collect : Nat → RowIterator → List (Except RowDecodeFault Row) →
    List (Except RowDecodeFault Row) × RowIterator
  | 0, it, done => (done.reverse, it)
  | n + 1, it, done =>
    match it.next with
    | (none, it) => (done.reverse, it)
    | (some row, it) => collect n it (row :: done)

end RowIterator

/-- The rows of a page, if columns are known by which to read them. -/
def Rows.iterator? (rows : Rows) (r : Registry) (fallback : Option Columns) : Option RowIterator :=
  (rows.metadata.columns <|> fallback).map fun columns => ⟨r, columns, rows.count, rows.content⟩

end CqlClient
