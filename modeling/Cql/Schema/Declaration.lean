import Cql.Datum

namespace Cql

structure FieldDecl where
  name : String
  type : String
  deriving DecidableEq, Repr

structure UserTypeDecl where
  name : String
  fields : List FieldDecl
  deriving DecidableEq, Repr

structure ColumnDecl where
  name : String
  type : String
  isStatic : Bool
  index : Option String
  deriving DecidableEq, Repr

inductive Direction
  | asc | desc
  deriving DecidableEq, Repr

namespace Direction

def name : Direction → String
  | .asc => "asc"
  | .desc => "desc"

end Direction

structure ClusteringDecl where
  name : String
  order : Direction
  deriving DecidableEq, Repr

structure TableDecl where
  name : String
  columns : List ColumnDecl
  partitionKey : List String
  clusteringKey : List ClusteringDecl
  options : Option (List (String × Datum))
  deriving Repr

structure FunctionDecl where
  name : String
  arguments : List FieldDecl
  returns : String
  language : Option String
  body : Option String
  calledOnNullInput : Bool
  deriving DecidableEq, Repr

structure AggregateDecl where
  name : String
  arguments : List String
  stateFunction : String
  stateType : String
  finalFunction : Option String
  initialCondition : Option String
  deriving DecidableEq, Repr

structure KeyspaceDecl where
  name : String
  /-- A type may refer to the types before it. -/
  types : List UserTypeDecl
  tables : List TableDecl
  functions : List FunctionDecl
  aggregates : List AggregateDecl
  deriving Repr

structure SchemaDecl where
  keyspaces : List KeyspaceDecl
  deriving Repr

end Cql
