import CqlClient.Frame.Envelope
import CqlClient.Render.Tree
import CqlClient.Row.Bound
import CqlClient.Wire

/-!
How frames and bound rows are shown.
-/

namespace CqlClient

open CqlClient.Tree (field)

instance : Render (Bound Bytes) where
  render
    | .value bytes => .record [field "value" bytes]
    | .null => .text "null"
    | .unset => .text "unset"

instance : Render BoundRow where
  render row := .record [field "bytes" row.bytes, field "count" row.count,
    field "empty" row.isEmpty, field "cells" row.toList]

def Envelope.fields (e : Envelope) : List Tree.Field :=
  [field "version" e.version, field "flags" e.flags.bits, field "stream" e.stream]

instance : Render Envelope where
  render e := .record (e.fields ++ [field "opcode" e.opcode.name, field "body" e.body])

instance : Render Header where
  render h := .record ((h.envelope []).fields ++
    [field "opcode" h.opcode.name, field "length" h.length])

/-- Start-up options sorted by name, in the bytes that are sent. -/
def startupTree (options : List (String × String)) : Tree :=
  let sorted := options.mergeSort fun a b => a.1 ≤ b.1
  .record [field "count" options.length,
    field "entries" (sorted.map fun (key, value) => (Utf8.encode key, Utf8.encode value))]

/-- A request as its receiver sees it. The order of start-up options has no meaning, so they are
sorted. -/
def Envelope.requestTree (e : Envelope) : Tree :=
  let content := match e.opcode, Wire.stringMap.outcome e.body with
    | .startup, .ok options => ("options", startupTree options)
    | _, _ => field "body" e.body
  .record (e.fields ++ [field "opcode" e.opcode.code, content])

end CqlClient
