import Cql.Schema.Fault
import Cql.Sorted
import Cql.Ty.Order
import Cql.Ty.Parser

namespace Cql

structure Registry where
  defaultKeyspace : Option String
  types : List (String × UserType)
  deriving Repr

namespace Registry

def empty : Registry := ⟨none, []⟩

/-- The registry in which names without a keyspace belong to `keyspace`. -/
def forKeyspace (keyspace : String) : Registry := ⟨some keyspace, []⟩

def key (keyspace name : String) : String := foldCase keyspace ++ "." ++ foldCase name

/-- Stores a user type in place of any earlier one of the same name. -/
def register (r : Registry) (keyspace name : String) (fields : List (String × Ty)) :
    UserType × Registry :=
  let u : UserType := ⟨some ⟨some keyspace, name⟩, fields⟩
  (u, { r with types := (Sorted.put compare (key keyspace name) u r.types).2 })

def get? (r : Registry) (keyspace name : String) : Option UserType :=
  Sorted.get? compare (key keyspace name) r.types

def contains (r : Registry) (keyspace name : String) : Bool := (r.get? keyspace name).isSome

def names (r : Registry) : List String := r.types.map (·.1)

def size (r : Registry) : Nat := r.types.length

def resolve (r : Registry) : Resolver := fun keyspace name =>
  (keyspace.or r.defaultKeyspace).bind fun keyspace => (r.get? keyspace name).map UserType.ty

/-- Reads a type text. That a user type is not known is a fault of the schema, whatever else is
wrong is one of the text. -/
def parse (r : Registry) (input : String) : Except SchemaFault Ty :=
  match Ty.parseWith r.resolve input with
  | .ok t => .ok t
  | .error (.unknownType name) => .error (.unknownType name)
  | .error fault => .error (.value fault)

end Registry

end Cql
