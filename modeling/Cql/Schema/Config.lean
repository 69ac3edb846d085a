import Cql.ConfigTree.Json
import Cql.Hcl
import Cql.Schema.Declaration
import Cql.Schema.Fault
import Cql.Toml

namespace Cql

def Direction.ofTree? {α : Type} [ConfigTree α] : Option α → Option Direction
  | none => some .asc
  | some t =>
    match ConfigTree.choice? t with
    | some "asc" => some .asc
    | some "desc" => some .desc
    | _ => none

section

open ConfigTree

variable {α : Type} [ConfigTree α]

def FieldDecl.ofTree? (t : α) : Option FieldDecl := do
  let [name, type] ← members? ["name", "type"] t | none
  return { name := ← text name, type := ← text type }

def UserTypeDecl.ofTree? (t : α) : Option UserTypeDecl := do
  let [name, fields] ← members? ["name", "fields"] t | none
  return { name := ← text name, fields := ← optionalItems FieldDecl.ofTree? fields }

def ColumnDecl.ofTree? (t : α) : Option ColumnDecl := do
  let [name, type, isStatic, index] ← members? ["name", "type", "static", "index"] t | none
  return {
    name := ← text name
    type := ← text type
    isStatic := ← flag isStatic
    index := ← optionalText index }

def ClusteringDecl.ofTree? (t : α) : Option ClusteringDecl := do
  let [name, order] ← members? ["name", "order"] t | none
  return { name := ← text name, order := ← Direction.ofTree? order }

def TableDecl.ofTree? (t : α) : Option TableDecl := do
  let [name, columns, partitionKey, clusteringKey, options] ←
    members? ["name", "columns", "partition_key", "clustering_key", "options"] t | none
  return {
    name := ← text name
    columns := ← items ColumnDecl.ofTree? columns
    partitionKey := ← optionalItems text? partitionKey
    clusteringKey := ← optionalItems ClusteringDecl.ofTree? clusteringKey
    options := ← optionalOptions options }

def FunctionDecl.ofTree? (t : α) : Option FunctionDecl := do
  let [name, arguments, returns, language, body, called] ←
    members? ["name", "arguments", "returns", "language", "body", "called_on_null_input"] t | none
  return {
    name := ← text name
    arguments := ← optionalItems FieldDecl.ofTree? arguments
    returns := ← text returns
    language := ← optionalText language
    body := ← optionalText body
    calledOnNullInput := ← flag called }

def AggregateDecl.ofTree? (t : α) : Option AggregateDecl := do
  let [name, arguments, stateFunction, stateType, finalFunction, initialCondition] ←
    members? ["name", "arguments", "state_function", "state_type", "final_function",
      "initial_condition"] t | none
  return {
    name := ← text name
    arguments := ← optionalItems text? arguments
    stateFunction := ← text stateFunction
    stateType := ← text stateType
    finalFunction := ← optionalText finalFunction
    initialCondition := ← optionalText initialCondition }

def KeyspaceDecl.ofTree? (t : α) : Option KeyspaceDecl := do
  let [name, types, tables, functions, aggregates] ←
    members? ["name", "types", "tables", "functions", "aggregates"] t | none
  return {
    name := ← text name
    types := ← optionalItems UserTypeDecl.ofTree? types
    tables := ← optionalItems TableDecl.ofTree? tables
    functions := ← optionalItems FunctionDecl.ofTree? functions
    aggregates := ← optionalItems AggregateDecl.ofTree? aggregates }

def SchemaDecl.ofTree? (t : α) : Option SchemaDecl := do
  let [keyspaces] ← members? ["keyspaces"] t | none
  return { keyspaces := ← optionalItems KeyspaceDecl.ofTree? keyspaces }

end

inductive Format
  | toml | hcl
  deriving DecidableEq, Repr

namespace Format

def fileExtension : Format → String
  | .toml => "toml"
  | .hcl => "hcl"

def read? (source : String) : Format → Option SchemaDecl
  | .toml => (Toml.parse source).bind SchemaDecl.ofTree?
  | .hcl => (Hcl.parse source).bind SchemaDecl.ofTree?

def decode (format : Format) (source : String) : Except SchemaFault SchemaDecl :=
  match format.read? source with
  | some d => .ok d
  | none => .error (.config .malformed)

end Format

namespace ConfigFile

def fileName (path : List Char) : List Char := (path.reverse.takeWhile (· != '/')).reverse

/-- What stands behind the last point of the file name, unless the name starts with that point. -/
def fileExtension? (path : List Char) : Option (List Char) :=
  let reversed := (fileName path).reverse
  match reversed.dropWhile (· != '.') with
  | [] | ['.'] => none
  | _ => some (reversed.takeWhile (· != '.')).reverse

/-- The declarations in a file of one of the formats, told by the extension of its name, which is
taken to be TOML if there is none. That there is such a file is looked at first. -/
def load (formats : List Format) (path : String) (content : Option String) :
    Except SchemaFault SchemaDecl :=
  inContext path <|
    match content with
    | none => .error (.config .missingFile)
    | some source =>
      let extension := foldCase (String.ofList ((fileExtension? path.toList).getD "toml".toList))
      match formats.find? (·.fileExtension == extension) with
      | some format => format.decode source
      | none => .error (.config (.unsupportedFormat extension))

end ConfigFile

end Cql
