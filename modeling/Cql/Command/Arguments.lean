import Cql.Command.Calculation

/-!
Command lines: `check`, `type` or `calc` with options and operands. An option is written
`--name value` or `--name=value` and is given at most once. Behind `--` everything is an operand;
before it, what starts with a dash is an operand only where the command takes such operands, and
whoever asks for help is not given the result of a command.
-/

namespace Cql

inductive Command
  | check (schema : String) (json : Bool)
  | type (input : String) (schema keyspace : Option String)
  | calc (c : Calculation)
  deriving DecidableEq, Repr

namespace Command

structure Form where
  options : List String
  switches : List String
  /-- For each operand whether it may start with a dash. -/
  operands : List Bool

structure Given where
  options : List (String × String) := []
  switches : List String := []
  operands : List String := []

def looksLikeOption (arg : String) : Bool :=
  match arg.toList with
  | '-' :: _ :: _ => true
  | _ => false

def splitOption? (arg : String) : Option (String × Option String) :=
  match arg.toList with
  | '-' :: '-' :: rest =>
    let name := String.ofList (rest.takeWhile (· != '='))
    match rest.dropWhile (· != '=') with
    | _ :: value => some (name, some (String.ofList value))
    | [] => some (name, none)
  | _ => none

def asksForHelp (arg : String) : Bool :=
  match arg.toList with
  | '-' :: 'h' :: rest => rest.all (· == 'h')
  | _ => (splitOption? arg).any (·.1 == "help")

def Given.addOperand? (g : Given) (form : Form) (arg : String) : Option Given :=
  if g.operands.length < form.operands.length then
    some { g with operands := g.operands ++ [arg] }
  else none

def Given.addOption? (g : Given) (name value : String) : Option Given :=
  if g.options.any (·.1 == name) then none
  else some { g with options := g.options ++ [(name, value)] }

def Given.addSwitch? (g : Given) (name : String) : Option Given :=
  if g.switches.contains name then none
  else some { g with switches := g.switches ++ [name] }

def Form.read? (form : Form) : Given → List String → Option Given
  | g, [] => some g
  | g, "--" :: rest => rest.foldlM (fun g arg => g.addOperand? form arg) g
  | g, arg :: rest =>
    let asOperand : Option Given :=
      if asksForHelp arg then none
      else if !looksLikeOption arg || form.operands[g.operands.length]?.getD false then
        g.addOperand? form arg
      else none
    match splitOption? arg with
    | none => do form.read? (← asOperand) rest
    | some (name, value) =>
      if form.switches.contains name then
        match value with
        | none => do form.read? (← g.addSwitch? name) rest
        | some _ => none
      else if form.options.contains name then
        match value, rest with
        | some value, rest => do form.read? (← g.addOption? name value) rest
        | none, value :: rest =>
          if looksLikeOption value then none
          else do form.read? (← g.addOption? name value) rest
        | none, [] => none
      else do form.read? (← asOperand) rest

def path? (path : String) : Option String := if path.isEmpty then none else some path

def ofCheck? (args : List String) : Option Command := do
  let form : Form := ⟨["schema"], ["json"], []⟩
  let g ← form.read? {} args
  return .check (← path? ((g.options.lookup "schema").getD "schema.toml"))
    (g.switches.contains "json")

def ofType? (args : List String) : Option Command := do
  let form : Form := ⟨["schema", "keyspace"], [], [false]⟩
  let g ← form.read? {} args
  let schema ← (g.options.lookup "schema").mapM path?
  let keyspace := g.options.lookup "keyspace"
  if keyspace.isSome && schema.isNone then none
  let [input] := g.operands | none
  return .type input schema keyspace

def ofCalc? (args : List String) : Option Command := do
  let form : Form := ⟨["width"], [], [true, false, true]⟩
  let g ← form.read? {} args
  let width ← Width.ofName? ((g.options.lookup "width").getD Width.bigint.name)
  match g.operands with
  | [left, operator] => return .calc { width, left, operator, right := none }
  | [left, operator, right] => return .calc { width, left, operator, right := some right }
  | _ => none

def ofArguments (args : List String) : Except CommandFault Command :=
  let command := match args with
    | "check" :: args => ofCheck? args
    | "type" :: args => ofType? args
    | "calc" :: args => ofCalc? args
    | _ => none
  match command with
  | some command => .ok command
  | none => .error .usage

def schemaPath? : Command → Option String
  | .check schema _ => some schema
  | .type _ schema _ => schema
  | .calc _ => none

end Command

end Cql
