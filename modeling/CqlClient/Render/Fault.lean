import CqlClient.Render.Response
import CqlClient.Session.Fault

/-!
How the faults of sessions are shown: with their category, and with all that a server said. What
the transport says is left out, since it is not the same everywhere.
-/

namespace CqlClient

open CqlClient.Tree (field)

def faultFields (label message : String) : List Tree.Field :=
  [field "error" label, field "message" message]

/-- A fault as the cause of an outer one. -/
def ExecutionFault.fields (outer : String) (fault : ExecutionFault) : List Tree.Field :=
  let label := outer ++ fault.label
  let details := match fault with
    | call (.transport _) => [field "error" label]
    | database e => faultFields label fault.message ++ [field "database" e]
    | row e => faultFields label fault.message ++ [e.column]
    | _ => faultFields label fault.message
  details ++ [field "category" fault.category.name]

instance : Render ExecutionFault := ⟨fun fault => .record (fault.fields "")⟩

def KeyspaceFault.fields (outer : String) (fault : KeyspaceFault) : List Tree.Field :=
  match fault with
  | other cause => cause.fields outer
  | alreadyExists _ e | doesNotExist _ e =>
    faultFields (outer ++ fault.label) fault.message ++
      [field "database" e, field "category" fault.category.name]

instance : Render KeyspaceFault := ⟨fun fault => .record (fault.fields "")⟩

instance : Render OpeningFault where
  render fault := .record (match fault with
    | .keyspace cause => cause.fields "Keyspace."
    | .database e => faultFields fault.label fault.message ++ [field "database" e]
    | .transport .closedByPeer | .transport .notReceived => [field "error" fault.label]
    | _ => faultFields fault.label fault.message)

end CqlClient
