import Cql.ConfigTree
import Cql.Json

namespace Cql.Json

mutual

def toDatum? : Json → Option Datum
  | .null => none
  | .bool b => some (.bool b)
  | .int n => (Fixed.ofInt? .bigint n).map .int
  | .double d => some (.double d)
  | .text s => some (.text s)
  | .array items => (itemData? items).map .array
  | .object members => (memberData? members).map .table

def itemData? : List Json → Option (List Datum)
  | [] => some []
  | x :: xs => do return (← x.toDatum?) :: (← itemData? xs)

def memberData? : List (String × Json) → Option (List (String × Datum))
  | [] => some []
  | (name, x) :: members => do return (name, ← x.toDatum?) :: (← memberData? members)

end

instance : ConfigTree Json where
  isNull
    | .null => true
    | _ => false
  text?
    | .text s => some s
    | _ => none
  flag?
    | .bool b => some b
    | _ => none
  items?
    | .array items => some items
    | _ => none
  members? names
    | .object members => some (ConfigTree.named names members)
    | .array items =>
      if items.length ≤ names.length then some (ConfigTree.inOrder names items) else none
    | _ => none
  choice?
    | .text s | .object [(s, .null)] => some s
    | _ => none
  options?
    | .object members => memberData? members
    | _ => none

end Cql.Json
