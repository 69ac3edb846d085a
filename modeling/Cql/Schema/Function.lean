import Cql.Literal
import Cql.Registry
import Cql.Schema.Declaration
import Cql.Value.Json

namespace Cql

/-- A name with argument types: what tells a function or an aggregate from all others of its
keyspace. -/
def signature (name : String) (arguments : List Ty) : String :=
  name ++ "(" ++ ",".intercalate (arguments.map Ty.text) ++ ")"

structure Function where
  name : String
  arguments : List (String × Ty)
  returns : Ty
  language : Option String := none
  body : Option String := none
  calledOnNullInput : Bool := false
  deriving Repr

namespace Function

def argumentTypes (f : Function) : List Ty := f.arguments.map (·.2)

def signature (f : Function) : String := Cql.signature f.name f.argumentTypes

def ofDecl (d : FunctionDecl) (registry : Registry) : Except SchemaFault Function := do
  let arguments ← d.arguments.mapM fun a => do
    let t ← inContext s!"function '{d.name}' argument '{a.name}'" (registry.parse a.type)
    return (a.name, t)
  let returns ← inContext s!"function '{d.name}' return type" (registry.parse d.returns)
  return {
    name := d.name
    arguments, returns
    language := d.language
    body := d.body
    calledOnNullInput := d.calledOnNullInput }

def toJson (f : Function) : Json :=
  let given (name : String) (s : Option String) : List (String × Json) :=
    s.toList.map fun s => (name, .text s)
  .ofMembers <|
    [("simple_name", .text f.name),
      ("arguments", .array (f.arguments.map fun a => .texts [a.1, a.2.text])),
      ("return_type", .text f.returns.text)] ++
    given "language" f.language ++ given "body" f.body ++
    [("called_on_null_input", .bool f.calledOnNullInput), ("signature", .text f.signature)]

end Function

/-- An aggregate starts from a state, takes every row into it through the state function, and
hands the last state to the final function, if there is one. -/
structure Aggregate where
  name : String
  argumentTypes : List Ty
  stateType : Ty
  stateFunction : Function
  finalFunction : Option Function
  initialCondition : Option Value := none
  deriving Repr

namespace Aggregate

def signature (a : Aggregate) : String := Cql.signature a.name a.argumentTypes

def returns (a : Aggregate) : Ty :=
  match a.finalFunction with
  | some f => f.returns
  | none => a.stateType

/-- An aggregate whose state function takes the state and the arguments, and whose final function,
if it has one, takes the state alone. -/
def build (name : String) (argumentTypes : List Ty) (stateType : Ty) (stateFunction : Function)
    (finalFunction : Option Function) : Except SchemaFault Aggregate := do
  let own := Cql.signature name argumentTypes
  let taken := stateType :: argumentTypes
  if stateFunction.argumentTypes ≠ taken then
    throw (.config (.stateFunction own stateFunction.signature taken))
  if let some f := finalFunction then
    if f.argumentTypes ≠ [stateType] then
      throw (.config (.finalFunction own f.signature stateType))
  return { name, argumentTypes, stateType, stateFunction, finalFunction }

def withInitialCondition (a : Aggregate) (v : Value) : Except SchemaFault Aggregate := do
  let v ← inContext s!"aggregate {a.signature} initial condition" (onValue (a.stateType.coerce v))
  return { a with initialCondition := some v }

def lookup (functions : List Function) (name : String) (arguments : List Ty) :
    Except SchemaFault Function :=
  match functions.find? (·.signature == Cql.signature name arguments) with
  | some f => .ok f
  | none => .error (.config (.unknownFunction (Cql.signature name arguments)))

def ofDecl (d : AggregateDecl) (registry : Registry) (functions : List Function) :
    Except SchemaFault Aggregate := do
  let context := s!"aggregate '{d.name}'"
  let argumentTypes ← inContext context (d.arguments.mapM registry.parse)
  let stateType ← inContext context (registry.parse d.stateType)
  let stateFunction ←
    inContext context (lookup functions d.stateFunction (stateType :: argumentTypes))
  let finalFunction ← d.finalFunction.mapM fun name =>
    inContext context (lookup functions name [stateType])
  let a ← build d.name argumentTypes stateType stateFunction finalFunction
  match d.initialCondition with
  | some literal => do
    let v ← inContext context (onValue (stateType.parseLiteral literal))
    a.withInitialCondition v
  | none => return a

def toJson (a : Aggregate) : Json :=
  .ofMembers [("signature", .text a.signature),
    ("state_function", .text a.stateFunction.signature),
    ("final_function", .optional (a.finalFunction.map Function.signature)),
    ("state_type", .text a.stateType.text),
    ("return_type", .text a.returns.text),
    ("initial_condition", (a.initialCondition.map Value.toJson).getD .null)]

end Aggregate

end Cql
