import CqlClient.Fault

/-!
Statements on keyspaces. Only names that need no escaping are accepted, and names of datacenters
are escaped, so that no name can end the text around it.
-/

namespace CqlClient

structure InvalidKeyspace where
  name : String
  deriving DecidableEq

def InvalidKeyspace.message (e : InvalidKeyspace) : String :=
  "Keyspace must match `[a-zA-Z_0-9]\x7b1, 48\x7d`, found `" ++ e.name ++ "`"

def InvalidKeyspace.label (_ : InvalidKeyspace) : String := "InvalidKeyspace"

instance : Fault InvalidKeyspace := ⟨InvalidKeyspace.label, InvalidKeyspace.message⟩

namespace Keyspace

def maxNameLength : Nat := 48

def isNameChar (c : Char) : Bool := c.isAlphanum || c == '_'

def isName (name : String) : Bool :=
  !name.isEmpty && name.length ≤ maxNameLength && name.toList.all isNameChar

/-- A valid name between double quotes. -/
def quoted (name : String) : Except InvalidKeyspace String :=
  if isName name then .ok ("\"" ++ name ++ "\"") else .error ⟨name⟩

/-- The statement that makes a keyspace the current one. -/
def useStatement (name : String) : Except InvalidKeyspace String := do
  return "USE " ++ (← quoted name)

def dropStatement (name : String) (ifExists : Bool) : Except InvalidKeyspace String := do
  return "DROP KEYSPACE" ++ (if ifExists then " IF EXISTS " else " ") ++ (← quoted name)

end Keyspace

/-- How many copies of its rows a keyspace keeps. -/
inductive Replication where
  | simple (factor : UInt32)
  /-- Factors by datacenter, sorted by name; no name occurs twice. -/
  | topology (datacenters : List (String × UInt32))
  deriving DecidableEq

namespace Replication

/-- Sets the factor of a datacenter, in its place by name. -/
def insert (name : String) (factor : UInt32) : List (String × UInt32) → List (String × UInt32)
  | [] => [(name, factor)]
  | (other, f) :: rest =>
    if name < other then (name, factor) :: (other, f) :: rest
    else if name = other then (name, factor) :: rest
    else (other, f) :: insert name factor rest

def ofDatacenters (datacenters : List (String × UInt32)) : Replication :=
  topology (datacenters.foldl (fun done (name, factor) => insert name factor done) [])

/-- Sets the factor of a datacenter; a simple replication is given up. -/
def withDatacenter (r : Replication) (name : String) (factor : UInt32) : Replication :=
  match r with
  | simple _ => topology [(name, factor)]
  | topology datacenters => topology (insert name factor datacenters)

/-- A text between single quotes, those inside being doubled. -/
def quoteText (s : String) : String :=
  let doubled := s.toList.flatMap fun c => if c = '\'' then ['\'', '\''] else [c]
  String.ofList ('\'' :: doubled ++ ['\''])

def entry (key value : String) : String := quoteText key ++ ": " ++ value

def text (r : Replication) : String :=
  let entries := match r with
    | simple factor =>
      [entry "class" (quoteText "SimpleStrategy"),
        entry "replication_factor" (toString factor.toNat)]
    | topology datacenters =>
      entry "class" (quoteText "NetworkTopologyStrategy") ::
        datacenters.map fun (name, factor) => entry name (toString factor.toNat)
  "\x7b" ++ ", ".intercalate entries ++ "\x7d"

end Replication

/-- A keyspace to be created. -/
structure NewKeyspace where
  name : String
  replication : Replication
  ifNotExists : Bool
  durableWrites : Option Bool

namespace NewKeyspace

def named (name : String) : NewKeyspace := ⟨name, .simple 1, false, none⟩

def statement (k : NewKeyspace) : Except InvalidKeyspace String := do
  let name ← Keyspace.quoted k.name
  return "CREATE KEYSPACE " ++ (if k.ifNotExists then "IF NOT EXISTS " else "") ++ name ++
    " WITH replication = " ++ k.replication.text ++
    k.durableWrites.elim "" fun durable => " AND durable_writes = " ++ toString durable

end NewKeyspace

end CqlClient
