import Cql.Fault

namespace Cql

inductive ConfigFault
  | keyspaceTwice (name : String)
  | userTypeTwice (name : String)
  | unknownKeyColumn (name : String)
  | emptyPartitionKey
  | staticKeyColumn (name : String)
  | unknownFunction (signature : String)
  | stateFunction (aggregate function : String) (given : List Ty)
  | finalFunction (aggregate function : String) (given : Ty)
  | missingFile
  | unsupportedFormat (extension : String)
  | malformed
  | stated (message : String)
  deriving Repr

namespace ConfigFault

def message : ConfigFault → String
  | .keyspaceTwice name => s!"keyspace '{name}' declared twice"
  | .userTypeTwice name => s!"user type '{name}' declared twice"
  | .unknownKeyColumn name => s!"unknown key column '{name}'"
  | .emptyPartitionKey => "partition key is empty"
  | .staticKeyColumn name => s!"key column '{name}' cannot be static"
  | .unknownFunction signature => s!"unknown function {signature}"
  | .stateFunction aggregate function given =>
    let types := ",".intercalate (Ty.texts given)
    s!"aggregate {aggregate}: state function {function} does not accept ({types})"
  | .finalFunction aggregate function given =>
    s!"aggregate {aggregate}: final function {function} does not accept ({given.text})"
  | .missingFile => "No such file or directory (os error 2)"
  | .unsupportedFormat extension => s!"unsupported config format '.{extension}'"
  | .malformed => "malformed configuration"
  | .stated message => message

end ConfigFault

inductive SchemaFault
  | config (cause : ConfigFault)
  | value (fault : Fault)
  | unknownType (name : String)
  | missingField (name : String)
  | within (context : String) (fault : SchemaFault)
  deriving Repr

namespace SchemaFault

/-- The fault in a context; that a field is missing is said without any. -/
def inContext (context : String) : SchemaFault → SchemaFault
  | .missingField name => .missingField name
  | fault => .within context fault

def root : SchemaFault → SchemaFault
  | .within _ fault => fault.root
  | fault => fault

def detail : SchemaFault → String
  | .config cause => cause.message
  | .value fault => fault.message
  | .unknownType name => name
  | .missingField name => s!"Unable to get column field \"{name}\""
  | .within context fault => s!"{context}: {fault.detail}"

def message (fault : SchemaFault) : String :=
  match fault.root with
  | .config _ => "config error: " ++ fault.detail
  | .value _ => "value error: " ++ fault.detail
  | .unknownType _ => "unknown type: " ++ fault.detail
  | _ => fault.detail

end SchemaFault

def inContext {α : Type} (context : String) : Except SchemaFault α → Except SchemaFault α
  | .ok x => .ok x
  | .error fault => .error (fault.inContext context)

def onValue {α : Type} : Except Fault α → Except SchemaFault α
  | .ok x => .ok x
  | .error fault => .error (.value fault)

end Cql
