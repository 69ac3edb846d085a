import Cql.Schema.Function
import Cql.Schema.Table

/-!
Keyspaces, and the schema of all of them, built from their declarations. Within a keyspace, user
types come first and may refer to those before them; tables, functions and aggregates may refer to
all of them.
-/

namespace Cql

structure Keyspace where
  name : String
  registry : Registry
  userTypes : List UserType
  tables : List Table
  functions : List Function
  aggregates : List Aggregate
  deriving Repr

namespace Keyspace

def declareType (keyspace : String) (registry : Registry) (d : UserTypeDecl) :
    Except SchemaFault (UserType × Registry) := do
  if registry.contains keyspace d.name then
    inContext s!"keyspace '{keyspace}'" (throw (.config (.userTypeTwice d.name)))
  let fields ← d.fields.mapM fun f => do
    let t ← inContext s!"keyspace '{keyspace}' type '{d.name}' field '{f.name}'"
      (registry.parse f.type)
    return (f.name, t)
  return registry.register keyspace d.name fields

def declareTypes (keyspace : String) :
    Registry → List UserTypeDecl → Except SchemaFault (List UserType × Registry)
  | registry, [] => .ok ([], registry)
  | registry, d :: ds => do
    let (u, registry) ← declareType keyspace registry d
    let (us, registry) ← declareTypes keyspace registry ds
    return (u :: us, registry)

def ofDecl (d : KeyspaceDecl) : Except SchemaFault Keyspace := do
  let (userTypes, registry) ← declareTypes d.name (.forKeyspace d.name) d.types
  inContext s!"keyspace '{d.name}'" do
    let tables ← d.tables.mapM (Table.ofDecl · registry)
    let functions ← d.functions.mapM (Function.ofDecl · registry)
    let aggregates ← d.aggregates.mapM (Aggregate.ofDecl · registry functions)
    return { name := d.name, registry, userTypes, tables, functions, aggregates }

def userType? (k : Keyspace) (name : String) : Option UserType := k.registry.get? k.name name

def table? (k : Keyspace) (name : String) : Option Table := k.tables.find? (·.name == name)

def function? (k : Keyspace) (signature : String) : Option Function :=
  k.functions.find? (·.signature == signature)

def aggregate? (k : Keyspace) (signature : String) : Option Aggregate :=
  k.aggregates.find? (·.signature == signature)

def parseType (k : Keyspace) (input : String) : Except SchemaFault Ty := k.registry.parse input

def toJson (k : Keyspace) : Json :=
  .ofMembers [("name", .text k.name),
    ("types", .ofMembers
      (k.userTypes.map fun u => (u.ty.text, .text (Ty.user none u.fields).text))),
    ("tables", .array (k.tables.map Table.toJson)),
    ("functions", .array (k.functions.map Function.toJson)),
    ("aggregates", .array (k.aggregates.map Aggregate.toJson))]

end Keyspace

structure Schema where
  keyspaces : List Keyspace
  deriving Repr

namespace Schema

def declare (built : List Keyspace) : List KeyspaceDecl → Except SchemaFault (List Keyspace)
  | [] => .ok built
  | d :: ds =>
    if built.any (·.name == d.name) then .error (.config (.keyspaceTwice d.name))
    else do declare (built ++ [← Keyspace.ofDecl d]) ds

def ofDecl (d : SchemaDecl) : Except SchemaFault Schema := (declare [] d.keyspaces).map (⟨·⟩)

def keyspace? (s : Schema) (name : String) : Option Keyspace := s.keyspaces.find? (·.name == name)

def toJson (s : Schema) : Json := .array (s.keyspaces.map Keyspace.toJson)

end Schema

end Cql
