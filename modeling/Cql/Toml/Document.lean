import Cql.Assoc
import Cql.ConfigTree
import Cql.Sorted

/-!
What the lines of a TOML document make up. A table is opened by its header once; tables on the way
to it, and those that dotted keys make, come into being by themselves, but a dotted key adds only
to tables that dotted keys have made. Whatever breaks these rules makes the document malformed.
Entries stand in the order in which they came; a table that comes into being on the way to another
stands, once it has been opened, where it was opened.
-/

namespace Cql.Toml

inductive Origin
  | header | path | dotted
  deriving DecidableEq, Repr

inductive Node
  | value (d : Datum)
  | table (origin : Origin) (entries : List (String × Node))
  | tables (elements : List (List (String × Node)))
  deriving Repr

abbrev Entries := List (String × Node)

namespace Node

mutual

def toDatum : Node → Datum
  | .value d => d
  | .table _ entries => .table (entryData entries)
  | .tables elements => .array (elementData elements)

def entryData : List (String × Node) → List (String × Datum)
  | [] => []
  | (name, n) :: entries => (Sorted.put compare name n.toDatum (entryData entries)).2

def elementData : List (List (String × Node)) → List Datum
  | [] => []
  | entries :: elements => .table (entryData entries) :: elementData elements

end

def isEmpty : Node → Bool
  | .value (.array []) | .value (.table []) | .table _ [] => true
  | _ => false

def items? : Node → Option (List Node)
  | .value (.array items) => some (items.map .value)
  | .tables elements => some (elements.map (.table .header))
  | _ => none

def entries? : Node → Option (List (String × Node))
  | .value (.table entries) => some (entries.map fun e => (e.1, .value e.2))
  | .table _ entries => some entries
  | _ => none

/-- A word, alone or as the name of something empty. A table on one line has no other entry. -/
def choice? : Node → Option String
  | .value (.text s) => some s
  | .value (.table [(name, d)]) => if isEmpty (.value d) then some name else none
  | .table _ ((name, n) :: _) => if n.isEmpty then some name else none
  | _ => none

instance : ConfigTree Node where
  isNull _ := false
  text?
    | .value (.text s) => some s
    | _ => none
  flag?
    | .value (.bool b) => some b
    | _ => none
  items? := items?
  members? names n :=
    match n.items? with
    | some items => some (ConfigTree.inOrder names items)
    | none => n.entries?.map (ConfigTree.named names)
  choice? := choice?
  options?
    | .value (.table entries) => some entries
    | .table _ entries => some (entryData entries)
    | _ => none

end Node

namespace Entries

def get? (es : Entries) (key : String) : Option Node := es.lookup key

def put (es : Entries) (key : String) (n : Node) : Entries := Assoc.put key n es

/-- Gives a dotted key its value. All tables on the way but the last may be such as headers made
on their way; the last one must be made by dotted keys. -/
def assign (d : Datum) : (path : List String) → Entries → Option Entries
  | [], _ => none
  | [key], es => if (es.get? key).isSome then none else some (es.put key (.value d))
  | key :: next :: path, es =>
    match es.get? key with
    | none => (assign d (next :: path) []).map fun sub => es.put key (.table .dotted sub)
    | some (.value _) => none
    | some (.table origin sub) =>
      if origin = .dotted ∨ (origin = .path ∧ path ≠ []) then
        (assign d (next :: path) sub).map fun sub => es.put key (.table origin sub)
      else none
    | some (.tables elements) =>
      if path = [] then none
      else do
        let sub ← assign d (next :: path) (← elements.getLast?)
        return es.put key (.tables (elements.dropLast ++ [sub]))

/-- Changes the table at the end of a path of headers, making the tables on the way that are not
there. An array of tables stands for its last element. -/
def within (change : Entries → Option Entries) : (path : List String) → Entries → Option Entries
  | [], es => change es
  | key :: path, es =>
    match es.get? key with
    | none => (within change path []).map fun sub => es.put key (.table .path sub)
    | some (.value _) => none
    | some (.table origin sub) =>
      (within change path sub).map fun sub => es.put key (.table origin sub)
    | some (.tables elements) => do
      let sub ← within change path (← elements.getLast?)
      return es.put key (.tables (elements.dropLast ++ [sub]))

def openTable (key : String) (es : Entries) : Option Entries :=
  match es.get? key with
  | none => some (es.put key (.table .header []))
  | some (.table .path sub) => some (es.filter (·.1 ≠ key) ++ [(key, .table .header sub)])
  | _ => none

def openElement (key : String) (es : Entries) : Option Entries :=
  match es.get? key with
  | none => some (es.put key (.tables [[]]))
  | some (.tables elements) => some (es.put key (.tables (elements ++ [[]])))
  | _ => none

end Entries

inductive Line
  | header (path : List String) (key : String)
  | elementHeader (path : List String) (key : String)
  | assignment (path : List String) (d : Datum)
  deriving Repr

structure Document where
  root : Entries
  current : List String

namespace Document

def empty : Document := ⟨[], []⟩

def add (doc : Document) : Line → Option Document
  | .header path key => do
    return ⟨← doc.root.within (·.openTable key) path, path ++ [key]⟩
  | .elementHeader path key => do
    return ⟨← doc.root.within (·.openElement key) path, path ++ [key]⟩
  | .assignment path d => do
    return ⟨← doc.root.within (·.assign d path) doc.current, doc.current⟩

def node (doc : Document) : Node := .table .header doc.root

end Document

def inlineTable (assignments : List (List String × Datum)) : Option Datum :=
  (assignments.foldlM (fun es (path, d) => Entries.assign d path es) []).map fun es =>
    (Node.table .header es).toDatum

end Cql.Toml
