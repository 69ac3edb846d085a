import Cql.Double.Text
import Cql.Sorted
import Cql.Text.Enclosed

namespace Cql

inductive Json
  | null
  | bool (b : Bool)
  | int (n : Int)
  | double (d : Double)
  | text (s : String)
  | array (items : List Json)
  | object (members : List (String × Json))
  deriving Repr

namespace Json

/-- An integer, or the double next to it if 64 bits hold it neither with a sign nor without. -/
def ofInt (n : Int) : Json :=
  if -0x8000000000000000 ≤ n ∧ n ≤ 0xffffffffffffffff then .int n
  else .double (Decimal.toDouble (n < 0) ⟨n.natAbs, 0⟩)

/-- The object of the given members; of members with one name the last one stays. -/
def ofMembers (members : List (String × Json)) : Json :=
  .object (members.foldl (fun o m => (Sorted.put compare m.1 m.2 o).2) [])

def texts (items : List String) : Json := .array (items.map .text)

def optional : Option String → Json
  | some s => .text s
  | none => .null

private def controlText (c : Char) : List Char :=
  let n := c.toNat
  ['\\', 'u', '0', '0', if n < 16 then '0' else '1', (Nat.digitChar (n % 16))]

def escapeChar (c : Char) : List Char :=
  if c = '"' then ['\\', '"']
  else if c = '\\' then ['\\', '\\']
  else if c = '\n' then ['\\', 'n']
  else if c = '\r' then ['\\', 'r']
  else if c = '\t' then ['\\', 't']
  else if c = '\x08' then ['\\', 'b']
  else if c = '\x0c' then ['\\', 'f']
  else if c.toNat < 0x20 then controlText c
  else [c]

def quote (s : String) : String := "\"" ++ String.ofList (s.toList.flatMap escapeChar) ++ "\""

def newline (level : Nat) : String := "\n" ++ String.ofList (List.replicate (2 * level) ' ')

def block (opening closing : Char) (level : Nat) (items : List String) : String :=
  if items.isEmpty then enclosed opening closing []
  else
    let lines := ("," ++ newline (level + 1)).intercalate items
    enclosed opening closing [newline (level + 1) ++ lines ++ newline level]

mutual

def pretty (level : Nat) : Json → String
  | .null => "null"
  | .bool b => toString b
  | .int n => toString n
  | .double d => d.jsonText
  | .text s => quote s
  | .array items => block '[' ']' level (prettyItems (level + 1) items)
  | .object members => block '{' '}' level (prettyMembers (level + 1) members)

def prettyItems (level : Nat) : List Json → List String
  | [] => []
  | x :: xs => x.pretty level :: prettyItems level xs

def prettyMembers (level : Nat) : List (String × Json) → List String
  | [] => []
  | (name, x) :: xs => (quote name ++ ": " ++ x.pretty level) :: prettyMembers level xs

end

end Json

end Cql
