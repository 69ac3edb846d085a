import Cql.Container

namespace Cql

def pairs {α : Type} : List α → List (α × α)
  | a :: b :: rest => (a, b) :: pairs rest
  | _ => []

def Scalar.create (s : Scalar) (args : List Value) : Except Fault Value :=
  match args with
  | [.null] => .ok .null
  | [v] =>
    match s with
    | .tinyint => (v.toFixed .tinyint).map (.fixed .tinyint)
    | .smallint => (v.toFixed .smallint).map (.fixed .smallint)
    | .int => (v.toFixed .int).map (.fixed .int)
    | .bigint | .counter => (v.toFixed .bigint).map (.fixed .bigint)
    | _ => (Ty.scalar s).validate v |>.map fun _ => v
  | _ => .error (.scalarArity s args.length)

namespace Container

def fillSlots (elements : List Ty) : (index : Nat) → (slots : List Value) → List Value →
    Except Fault (List Value)
  | _, slots, [] => .ok slots
  | index, slots, v :: vs =>
    match setSlot elements slots index v with
    | .ok slots => fillSlots elements (index + 1) slots vs
    | .error fault => .error (.within s!"element {index}" fault)

def fillFields (u : UserType) : (position : Nat) → (slots : List Value) → List (Value × Value) →
    Except Fault (List Value)
  | _, slots, [] => .ok slots
  | position, slots, (name, v) :: rest =>
    match name.asText? with
    | some name => do fillFields u (position + 2) (← setField u slots name v) rest
    | none => .error (.argumentNotText position)

end Container

/-- A value of the type from positional arguments: the one value of a scalar, the elements of a
list or set, keys and values of a map by turns, nothing or every element of a tuple, names and
values of the fields of a user type by turns. -/
def Ty.create (t : Ty) (args : List Value) : Except Fault Value :=
  match t with
  | .scalar s => s.create args
  | .list t => (args.foldlM (Container.push t) []).map (.list t)
  | .set t =>
    (args.foldlM (fun items v => (·.2) <$> Container.insert t items v) []).map (.set t)
  | .map k v =>
    if args.length % 2 = 1 then .error .oddEntries
    else
      ((pairs args).foldlM (fun es e => (·.2) <$> Container.put k v es e.1 e.2) []).map (.map k v)
  | .tuple ts =>
    let slots := Container.emptySlots ts.length
    if args.isEmpty then .ok (.tuple ts slots)
    else if args.length ≠ ts.length then .error (.tupleArity ts.length)
    else (Container.fillSlots ts 0 slots args).map (.tuple ts)
  | .user label fields =>
    let u : UserType := ⟨label, fields⟩
    if args.length % 2 = 1 then .error .oddSlots
    else
      (Container.fillFields u 1 (Container.emptySlots fields.length) (pairs args)).map (.user u)

def Code.read (n : Nat) : Except Fault Code :=
  match Code.ofNumber? n with
  | some code => .ok code
  | none => .error (.unknownCode n)

namespace Ty

/-- The type of a code. Families of composite types have no member without component types. -/
def ofCode : Code → Except Fault Ty
  | .scalar s => .ok (.scalar s)
  | code => .error (.abstractCode code.number)

def component (role : String) (v : Value) : Except Fault Ty :=
  match v with
  | .type t => .ok t
  | v => .error (.notType role v.kind)

def listOf (element : Value) : Except Fault Ty := (component "type" element).map .list

def setOf (element : Value) : Except Fault Ty := (component "type" element).map .set

def mapOf (key value : Value) : Except Fault Ty := do
  let k ← component "keyType" key
  let v ← component "valueType" value
  return .map k v

def components : (position : Nat) → List Value → Except Fault (List Ty)
  | _, [] => .ok []
  | position, .type t :: vs => (components (position + 1) vs).map (t :: ·)
  | position, _ :: _ => .error (.argumentNotType position)

def tupleOf (args : List Value) : Except Fault Ty := (components 1 args).map .tuple

def fieldsOf : (position : Nat) → List (Value × Value) → Except Fault (List (String × Ty))
  | _, [] => .ok []
  | position, (name, t) :: rest =>
    match name, t with
    | .text name, .type t => (fieldsOf (position + 2) rest).map ((name, t) :: ·)
    | .text _, _ => .error (.argumentNotType (position + 1))
    | _, _ => .error (.argumentNotText position)

def userOf (args : List Value) : Except Fault Ty :=
  if args.length % 2 = 1 then .error .oddFields
  else (fieldsOf 1 (pairs args)).map (.user none)

end Ty

end Cql
