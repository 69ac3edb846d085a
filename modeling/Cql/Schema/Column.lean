import Cql.Json
import Cql.Schema.Declaration
import Cql.Schema.Fault
import Cql.Validator
import Cql.Value

namespace Cql

inductive Role
  | partitionKey | clusteringKey | regular | static | compactValue
  deriving DecidableEq, Repr

namespace Role

def all : List Role := [.partitionKey, .clusteringKey, .regular, .static, .compactValue]

def name : Role → String
  | .partitionKey => "partition_key"
  | .clusteringKey => "clustering_key"
  | .regular => "regular"
  | .static => "static"
  | .compactValue => "compact_value"

def ofName? (name : String) : Option Role := all.find? (·.name == name)

end Role

structure ColumnMeta where
  name : String
  role : Role
  position : Nat := 0
  dataType : Option Ty := none
  frozen : Bool := false
  fields : List (String × Value) := []
  deriving Repr

namespace ColumnMeta

/-- The first field of that name, unless it is null. -/
def field? (m : ColumnMeta) (name : String) : Option Value :=
  (m.fields.lookup name).filter (!·.isNull)

def textField (m : ColumnMeta) (name : String) : Except SchemaFault (Option String) :=
  match m.field? name with
  | none => .ok none
  | some (.text s) => .ok (some s)
  | some v => .error (.value (.columnFieldNotText name v.kind))

end ColumnMeta

structure Column where
  name : String
  type : Option Ty
  role : Role
  reversed : Bool := false
  frozen : Bool := false
  indexName : Option String := none
  indexOptions : Option String := none
  deriving Repr

namespace Column

/-- The column that metadata describes. A validator tells type, order and frozenness; without one
they are the decoded type, for which the field with the order must be there, and its flag. -/
def ofMeta (m : ColumnMeta) : Except SchemaFault Column := do
  let indexName ← m.textField "index_name"
  let indexOptions ← m.textField "index_options"
  let column : Column := { name := m.name, type := none, role := m.role, indexName, indexOptions }
  match ← m.textField "validator" with
  | some text => do
    let v ← inContext s!"column '{m.name}'" (onValue (Validator.parse text))
    return { column with type := some v.ty, reversed := v.reversed, frozen := v.frozen }
  | none =>
    match m.dataType with
    | some t =>
      match ← m.textField "clustering_order" with
      | some order =>
        return { column with type := some t, frozen := m.frozen, reversed := order == "desc" }
      | none => throw (.missingField "clustering_order")
    | none => return column

def isStatic (c : Column) : Bool := c.role = .static

def direction (c : Column) : Direction := if c.reversed then .desc else .asc

def toJson (c : Column) : Json :=
  let given (name : String) (s : Option String) : List (String × Json) :=
    s.toList.map fun s => (name, .text s)
  .ofMembers <|
    [("name", .text c.name), ("type", .optional (c.type.map Ty.text)),
      ("kind", .text c.role.name), ("reversed", .bool c.reversed), ("frozen", .bool c.frozen)] ++
    given "index_name" c.indexName ++ given "index_options" c.indexOptions

end Column

end Cql
