import Cql.Assoc
import Cql.Registry
import Cql.Schema.Column
import Cql.Text.Blank
import Cql.Toml.Inline
import Cql.Value.Json

namespace Cql

structure TableMeta where
  name : String
  fields : List (String × Value) := []
  columns : List ColumnMeta := []
  deriving Repr

/-- The keys hold the places of their columns in `columns`. -/
structure Table where
  name : String
  options : List (String × Value)
  columns : List Column
  partitionPlaces : List Nat
  clusteringPlaces : List Nat
  deriving Repr

namespace Options

def terminators : List String := ["keyspace_name", "table_name", "columnfamily_name"]

/-- The options among raw fields: those before the first terminator that are not null; of fields
with one name the last value counts. -/
def ofFields (fields : List (String × Value)) : List (String × Value) :=
  Assoc.ofList
    ((fields.takeWhile fun f => !terminators.contains f.1).filter fun f => !f.2.isNull)

def ofDatum : Datum → Value
  | .text s => .text s
  | .int n => .long n
  | .double d => .double d
  | .bool b => .bool b
  | d => .text (Toml.inlineText d)

end Options

/-- Whether a type text has `frozen<...>` as its outermost constructor, as far as its first
characters tell. -/
def isFrozenText (s : String) : Bool :=
  let (word, rest) := (trimStart s.toList).splitAt 6
  word.map Char.toLower == "frozen".toList && (trimStart rest).head? == some '<'

namespace Table

def places (role : Role) (columns : List ColumnMeta) : List Nat :=
  let found := columns.zipIdx.filter (·.1.role = role)
  (found.mergeSort fun a b => a.1.position ≤ b.1.position).map (·.2)

def ofMeta (m : TableMeta) : Except SchemaFault Table := do
  let columns ← m.columns.mapM fun c => inContext s!"table '{m.name}'" (Column.ofMeta c)
  return {
    name := m.name
    options := Options.ofFields m.fields
    columns
    partitionPlaces := places .partitionKey m.columns
    clusteringPlaces := places .clusteringKey m.columns }

def place (d : TableDecl) (name : String) : Except SchemaFault Nat :=
  match d.columns.findIdx? (·.name == name) with
  | some i => .ok i
  | none => .error (.config (.unknownKeyColumn name))

def roleOf (d : TableDecl) (partitionPlaces : List Nat) (i : Nat) (c : ColumnDecl) : Role :=
  if partitionPlaces.contains i then .partitionKey
  else if d.clusteringKey.any (·.name == c.name) then .clusteringKey
  else if c.isStatic then .static
  else .regular

/-- A column of a declared table. The order is that of the first entry of its name in the
clustering key. -/
def columnOf (d : TableDecl) (registry : Registry) (partitionPlaces : List Nat)
    (c : ColumnDecl) (i : Nat) : Except SchemaFault Column := do
  let t ← inContext s!"table '{d.name}' column '{c.name}'" (registry.parse c.type)
  let role := roleOf d partitionPlaces i c
  if c.isStatic && role != .static then
    inContext s!"table '{d.name}'" (throw (.config (.staticKeyColumn c.name)))
  let order := (d.clusteringKey.find? (·.name == c.name)).map (·.order)
  return {
    name := c.name
    type := some t
    role
    reversed := order == some .desc
    frozen := isFrozenText c.type
    indexName := c.index }

/-- The declared table, with types looked up in the registry. The names in the keys are checked
before the columns are. -/
def ofDecl (d : TableDecl) (registry : Registry) : Except SchemaFault Table := do
  let (partitionPlaces, clusteringPlaces) ← inContext s!"table '{d.name}'" do
    let partitionPlaces ← d.partitionKey.mapM (place d)
    let clusteringPlaces ← d.clusteringKey.mapM fun c => place d c.name
    if partitionPlaces.isEmpty then throw (.config .emptyPartitionKey)
    return (partitionPlaces, clusteringPlaces)
  let columns ← d.columns.zipIdx.mapM fun (c, i) => columnOf d registry partitionPlaces c i
  return {
    name := d.name
    options := (d.options.getD []).map fun o => (o.1, Options.ofDatum o.2)
    columns, partitionPlaces, clusteringPlaces }

def option? (t : Table) (name : String) : Option Value := t.options.lookup name

def intOption? (t : Table) (name : String) : Option Int :=
  match t.option? name with
  | some (.long n) => some n.val
  | some (.fixed .int n) => some n.val
  | some (.fixed .bigint n) => some n.val
  | _ => none

def comment? (t : Table) : Option String := (t.option? "comment").bind Value.asText?

def gcGraceSeconds? (t : Table) : Option Int := t.intOption? "gc_grace_seconds"

def defaultTimeToLive? (t : Table) : Option Int := t.intOption? "default_time_to_live"

def column? (t : Table) (name : String) : Option Column := t.columns.find? (·.name == name)

def partitionKey (t : Table) : List Column := t.partitionPlaces.filterMap (t.columns[·]?)

def clusteringKey (t : Table) : List Column := t.clusteringPlaces.filterMap (t.columns[·]?)

def primaryKey (t : Table) : List Column := t.partitionKey ++ t.clusteringKey

def clusteringOrder (t : Table) : List Direction := t.clusteringKey.map Column.direction

def toJson (t : Table) : Json :=
  .ofMembers [("name", .text t.name),
    ("options", .ofMembers (t.options.map fun o => (o.1, o.2.toJson))),
    ("columns", .array (t.columns.map Column.toJson)),
    ("partition_key", .texts (t.partitionKey.map Column.name)),
    ("clustering_key", .texts (t.clusteringKey.map Column.name))]

end Table

end Cql
