import Cql.Ty.Parser

/-!
Reading types with the resolver left open. Where a user type is named, reading asks for it and goes
on with whatever the answer is. So a resolver may do something of its own whenever it is asked, and
what it has done by the time reading stops stays done.
-/

namespace Cql

/-- Reading that has ended, or that asks for a user type and goes on with the answer. -/
inductive Asks (α : Type)
  | ended (outcome : Except Stop α)
  | ask (label : Label) (next : Option Ty → Asks α)

abbrev Lookup (m : Type → Type) := Option String → String → m (Option Ty)

namespace Asks

variable {α β : Type}

protected def bind (reading : Asks α) (f : α → Asks β) : Asks β :=
  match reading with
  | ended (.ok x) => f x
  | ended (.error stop) => ended (.error stop)
  | ask label next => ask label fun answer => (next answer).bind f

instance : Monad Asks where
  pure x := ended (.ok x)
  bind := Asks.bind

instance : MonadLift (Except Stop) Asks := ⟨ended⟩

def run {m : Type → Type} [Monad m] (look : Lookup m) : Asks α → m (Except Stop α)
  | ended outcome => pure outcome
  | ask label next => do
    let answer ← look label.keyspace label.name
    (next answer).run look

def answered (resolve : Resolver) (reading : Asks α) : Except Stop α :=
  Id.run (reading.run fun keyspace name => resolve keyspace name)

/-- The names that are asked for, one after another, if every answer is a user type of the name. -/
def labels : Asks α → List Label
  | ended _ => []
  | ask label next => label :: (next (some (.user (some label) []))).labels

end Asks

namespace Ty.Asking

abbrev AskingReader (α : Type) := List Char → Asks (α × List Char)

variable {α : Type}

def items (item : AskingReader α) (closing : Char) : (fuel : Nat) → AskingReader (List α)
  | 0, s => .ended (.error (.unexpected s))
  | fuel + 1, s => do
    let (x, s) ← item s
    match Reader.eat? closing s with
    | some s => return ([x], s)
    | none =>
      let s ← Reader.expect ',' s
      let (xs, s) ← items item closing fuel s
      return (x :: xs, s)

def list (item : AskingReader α) (closing : Char) : AskingReader (List α) := fun s =>
  match Reader.eat? closing s with
  | some s => return ([], s)
  | none => items item closing (s.length + 1) s

def field (inner : AskingReader α) : AskingReader (String × α) := fun s => do
  let (name, s) ← nameReader s
  let s ← Reader.expect ':' s
  let (x, s) ← inner s
  return ((name, x), s)

def label (name : String) : Reader Label := fun s =>
  match Reader.eat? '.' s with
  | some s => do
    let (inner, s) ← nameReader s
    return (⟨some name, inner⟩, s)
  | none => .ok (⟨none, name⟩, s)

def user (label : Label) : AskingReader Ty := fun s =>
  .ask label fun
    | some t => return (t, s)
    | none => .ended (.error (.refused (.unknownType label.text)))

def named (name : String) : AskingReader Ty := fun s =>
  match Scalar.ofName? name with
  | some known => return (.scalar known, s)
  | none => do
    let (label, s) ← label name s
    user label s

def reader : (depth : Nat) → AskingReader Ty
  | 0, s => .ended (.error (.unexpected s))
  | depth + 1, s => do
    let (name, s) ← nameReader s
    match Builder.ofName? name with
    | some .list => do
      let (t, s) ← reader depth (← Reader.expect '<' s)
      return (.list t, ← Reader.expect '>' s)
    | some .set => do
      let (t, s) ← reader depth (← Reader.expect '<' s)
      return (.set t, ← Reader.expect '>' s)
    | some .frozen => do
      let (t, s) ← reader depth (← Reader.expect '<' s)
      return (t, ← Reader.expect '>' s)
    | some .map => do
      let (k, s) ← reader depth (← Reader.expect '<' s)
      let (v, s) ← reader depth (← Reader.expect ',' s)
      return (.map k v, ← Reader.expect '>' s)
    | some .tuple => do
      let (ts, s) ← list (reader depth) '>' (← Reader.expect '<' s)
      return (.tuple ts, s)
    | none =>
      match if sameName name "userType" then Reader.eat? '<' s else none with
      | some s => do
        let (fields, s) ← list (field (reader depth)) '>' s
        return (.user none fields, s)
      | none => named name s

end Ty.Asking

namespace Ty

def asking (input : String) : Asks (Ty × List Char) :=
  Asking.reader (input.toList.length + 1) input.toList

def parseAsking {m : Type → Type} [Monad m] (look : Lookup m) (input : String) :
    m (Except Fault Ty) := do
  let outcome ← (asking input).run look
  return Reader.whole .typeText (fun _ => outcome) input

/-- The user types that a text names, from left to right, to the end of the text or to where it
cannot be read any further. -/
def references (input : String) : List Label := (asking input).labels

end Ty

end Cql
