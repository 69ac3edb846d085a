import Cql.Toml.Document
import Cql.Toml.Lexeme

namespace Cql.Toml

/-- Values with commas between them, up to the closing bracket; at most `fuel` of them. Lines may
end anywhere, and a comma may stand behind the last value. -/
def arrayItems (value : Piece Datum) : (fuel : Nat) → Piece (List Datum)
  | 0, _ => none
  | fuel + 1, s => do
    match ← skipBlankLines? s with
    | ']' :: s => return ([], s)
    | s =>
      let (d, s) ← value s
      match ← skipBlankLines? s with
      | ']' :: s => return ([d], s)
      | ',' :: s =>
        let (ds, s) ← arrayItems value fuel s
        return (d :: ds, s)
      | _ => none

def assignment (value : Piece Datum) : Piece (List String × Datum) := fun s => do
  let (path, s) ← key s
  match s with
  | '=' :: s =>
    let (d, s) ← value (skipSpaces s)
    return ((path, d), s)
  | _ => none

def inlineItems (value : Piece Datum) : (fuel : Nat) → Piece (List (List String × Datum))
  | 0, _ => none
  | fuel + 1, s => do
    let (item, s) ← assignment value s
    match skipSpaces s with
    | '}' :: s => return ([item], s)
    | ',' :: s =>
      let (items, s) ← inlineItems value fuel s
      return (item :: items, s)
    | _ => none

def value (depth : Nat) : Piece Datum := fun s =>
  match s, depth with
  | '"' :: _, _ | '\'' :: _, _ => (quotedText s).map fun (text, s) => (.text text, s)
  | '[' :: _, 0 | '{' :: _, 0 => none
  | '[' :: s, depth + 1 =>
    (arrayItems (value depth) (s.length + 1) s).map fun (ds, s) => (.array ds, s)
  | '{' :: s, depth + 1 =>
    match skipSpaces s with
    | '}' :: s => some (.table [], s)
    | s => do
      let (items, s) ← inlineItems (value depth) (s.length + 1) s
      return (← inlineTable items, s)
  | s, _ => word s

def maxDepth : Nat := 79

def lineRest? (s : List Char) : Option (List Char) := do
  let s ← skipComment? s
  if s.isEmpty then some [] else lineEnd? s

def headerKey? (path : List String) : Option (List String × String) :=
  path.getLast?.map fun key => (path.dropLast, key)

def line : Piece (Option Line) := fun s => do
  let (found, s) ← match skipSpaces s with
    | [] => pure (none, [])
    | '#' :: s => pure (none, '#' :: s)
    | '\n' :: s => pure (none, '\n' :: s)
    | '\r' :: s => pure (none, '\r' :: s)
    | '[' :: '[' :: s => do
      let (keys, s) ← key s
      let (path, key) ← headerKey? keys
      match s with
      | ']' :: ']' :: s => pure (some (.elementHeader path key), s)
      | _ => none
    | '[' :: s => do
      let (keys, s) ← key s
      let (path, key) ← headerKey? keys
      match s with
      | ']' :: s => pure (some (.header path key), s)
      | _ => none
    | s => do
      let ((path, d), s) ← assignment (value maxDepth) s
      pure (some (.assignment path d), s)
  return (found, ← lineRest? s)

def lines : (fuel : Nat) → Document → List Char → Option Document
  | _, doc, [] => some doc
  | 0, _, _ => none
  | fuel + 1, doc, s => do
    let (found, s) ← line s
    match found with
    | some found => lines fuel (← doc.add found) s
    | none => lines fuel doc s

def parse (input : String) : Option Node :=
  let s := match input.toList with
    | '\ufeff' :: s => s
    | s => s
  (lines (s.length + 1) .empty s).map Document.node

end Cql.Toml
