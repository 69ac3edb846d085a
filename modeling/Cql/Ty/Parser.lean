import Cql.Reader
import Cql.Ty

/-!
Reading types: scalar names, `list<T>`, `set<T>`, `map<K, V>`, `tuple<T, ...>`, `frozen<T>`, which
is the same type as `T`, anonymous user types `userType<a:T, ...>`, and the names of user types,
which a resolver looks up. Keywords and scalar names may be in any case, and in double quotes.
-/

namespace Cql

abbrev Resolver := Option String → String → Option Ty

namespace Ty

def noUserTypes : Resolver := fun _ _ => none

inductive Builder
  | list | set | frozen | map | tuple
  deriving DecidableEq, Repr

namespace Builder

def all : List Builder := [.list, .set, .frozen, .map, .tuple]

def name : Builder → String
  | .list => "list"
  | .set => "set"
  | .frozen => "frozen"
  | .map => "map"
  | .tuple => "tuple"

def ofName? (name : String) : Option Builder := all.find? (sameName name ·.name)

end Builder

def isNameChar (c : Char) : Bool := c.isAlphanum || c == '_'

def nameReader : Reader String := fun s =>
  match trimStart s with
  | '"' :: s => do
    let (name, s) ← Reader.quoted '"' s
    return (String.ofList name, s)
  | s =>
    if (s.takeWhile isNameChar).isEmpty then .error (.unexpected s)
    else .ok (String.ofList (s.takeWhile isNameChar), s.dropWhile isNameChar)

/-- A scalar, or a user type, of which the first name has been read: the name of the type, or that
of its keyspace if a point and another name follow. -/
def namedReader (resolve : Resolver) (name : String) : Reader Ty := fun s =>
  match Scalar.ofName? name with
  | some known => .ok (.scalar known, s)
  | none => do
    let (label, s) ← match Reader.eat? '.' s with
      | some s => do
        let (inner, s) ← nameReader s
        pure ((⟨some name, inner⟩ : Label), s)
      | none => pure (⟨none, name⟩, s)
    match resolve label.keyspace label.name with
    | some t => return (t, s)
    | none => throw (.refused (.unknownType label.text))

def fieldReader {α : Type} (inner : Reader α) : Reader (String × α) := fun s => do
  let (name, s) ← nameReader s
  let s ← Reader.expect ':' s
  let (x, s) ← inner s
  return ((name, x), s)

def reader (resolve : Resolver) : (depth : Nat) → Reader Ty
  | 0, s => .error (.unexpected s)
  | depth + 1, s => do
    let (name, s) ← nameReader s
    match Builder.ofName? name with
    | some .list => do
      let (t, s) ← reader resolve depth (← Reader.expect '<' s)
      return (.list t, ← Reader.expect '>' s)
    | some .set => do
      let (t, s) ← reader resolve depth (← Reader.expect '<' s)
      return (.set t, ← Reader.expect '>' s)
    | some .frozen => do
      let (t, s) ← reader resolve depth (← Reader.expect '<' s)
      return (t, ← Reader.expect '>' s)
    | some .map => do
      let (k, s) ← reader resolve depth (← Reader.expect '<' s)
      let (v, s) ← reader resolve depth (← Reader.expect ',' s)
      return (.map k v, ← Reader.expect '>' s)
    | some .tuple => do
      let (ts, s) ← Reader.list (reader resolve depth) '>' (← Reader.expect '<' s)
      return (.tuple ts, s)
    | none =>
      match if sameName name "userType" then Reader.eat? '<' s else none with
      | some s => do
        let (fields, s) ← Reader.list (fieldReader (reader resolve depth)) '>' s
        return (.user none fields, s)
      | none => namedReader resolve name s

/-- The type that a text denotes. Types within types each take up some of the text, so they go no
deeper than it is long. -/
def parseWith (resolve : Resolver) (input : String) : Except Fault Ty :=
  Reader.whole .typeText (fun s => reader resolve (s.length + 1) s) input

def parse (input : String) : Except Fault Ty := parseWith noUserTypes input

end Ty

end Cql
