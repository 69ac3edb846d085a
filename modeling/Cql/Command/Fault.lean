import Cql.Schema.Fault

namespace Cql

inductive CommandFault
  | usage
  | schema (fault : SchemaFault)
  | value (fault : Fault)
  | keyspaceNotFound (name : String)
  | unknownOperator (operator : String)
  | missingOperand (operator : String)
  | unexpectedOperand (operator : String)
  deriving Repr

namespace CommandFault

def message : CommandFault → String
  | .usage => "unexpected arguments"
  | .schema fault => fault.message
  | .value fault => fault.message
  | .keyspaceNotFound name => s!"keyspace '{name}' not found"
  | .unknownOperator operator => s!"unknown operator '{operator}'"
  | .missingOperand operator => s!"operator '{operator}' needs a right operand"
  | .unexpectedOperand operator => s!"operator '{operator}' takes a single operand"

end CommandFault

def ofValue {α : Type} : Except Fault α → Except CommandFault α
  | .ok x => .ok x
  | .error fault => .error (.value fault)

def ofSchema {α : Type} : Except SchemaFault α → Except CommandFault α
  | .ok x => .ok x
  | .error fault => .error (.schema fault)

end Cql
