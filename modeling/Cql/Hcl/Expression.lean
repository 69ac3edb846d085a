import Cql.Assoc
import Cql.ConfigTree
import Cql.Json

/-!
The values of HCL, and the text of one within a template. Whatever is not a text stands, where a
text is wanted, for the template that consists of nothing but it.
-/

namespace Cql.Hcl

/-- A key of an object. One in quotes is not the same as one without. -/
structure Key where
  name : String
  quoted : Bool
  deriving DecidableEq, Repr

inductive Expression
  | null
  | bool (b : Bool)
  | int (n : Nat)
  | double (d : Double)
  | text (s : String)
  | list (items : List Expression)
  | object (entries : List (Key × Expression))
  deriving Repr

/-- A text with the signs that open a part of a template doubled, so that they open none. -/
def escapeMarkers : List Char → List Char
  | c :: '{' :: s =>
    if c = '$' ∨ c = '%' then c :: c :: '{' :: escapeMarkers s
    else c :: escapeMarkers ('{' :: s)
  | c :: s => c :: escapeMarkers s
  | [] => []

def quote (s : String) : String := Json.quote (String.ofList (escapeMarkers s.toList))

def Key.written (k : Key) : String := if k.quoted then quote k.name else k.name

namespace Expression

mutual

def written : Expression → String
  | .null => "null"
  | .bool b => toString b
  | .int n => toString n
  | .double d => d.jsonText
  | .text s => quote s
  | .list items => enclosed '[' ']' (writtenItems items)
  | .object entries => inBraces (writtenEntries entries)

def writtenItems : List Expression → List String
  | [] => []
  | x :: xs => x.written :: writtenItems xs

def writtenEntries : List (Key × Expression) → List String
  | [] => []
  | (k, x) :: entries => (k.written ++ " = " ++ x.written) :: writtenEntries entries

end

def asText : Expression → String
  | .text s => s
  | e => "$" ++ enclosed '{' '}' [e.written]

def byName (entries : List (String × Datum)) : List (String × Datum) :=
  entries.foldl (fun found e => (Sorted.put compare e.1 e.2 found).2) []

mutual

def toDatum? : Expression → Option Datum
  | .null => none
  | .bool b => some (.bool b)
  | .int n => (Fixed.ofInt? .bigint n).map .int
  | .double d => some (.double d)
  | .text s => some (.text s)
  | .list items => (itemData? items).map .array
  | .object entries => do
    let found ← entryData? entries
    if (byName found).length = found.length then some (.table (byName found)) else none

def itemData? : List Expression → Option (List Datum)
  | [] => some []
  | x :: xs => do return (← x.toDatum?) :: (← itemData? xs)

def entryData? : List (Key × Expression) → Option (List (String × Datum))
  | [] => some []
  | (k, x) :: entries => do return (k.name, ← x.toDatum?) :: (← entryData? entries)

end

instance : ConfigTree Expression where
  isNull
    | .null => true
    | _ => false
  text? e := some e.asText
  flag?
    | .bool b => some b
    | _ => none
  items?
    | .list items => some items
    | _ => none
  members? names
    | .list items => some (ConfigTree.inOrder names items)
    | .object entries =>
      if names.any fun name => 1 < entries.countP fun e => e.1.name == name then none
      else some (ConfigTree.named names (entries.map fun e => (e.1.name, e.2)))
    | _ => none
  choice?
    | .text s => some s
    | .object [(k, .null)] => some k.name
    | _ => none
  options?
    | .object entries => (entryData? entries).map byName
    | _ => none

end Expression

end Cql.Hcl
