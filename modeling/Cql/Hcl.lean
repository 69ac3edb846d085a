import Cql.Hcl.Expression
import Cql.Text.Identifier
import Cql.Text.Piece

namespace Cql.Hcl

def skipToLineEnd (s : List Char) : List Char := s.dropWhile (· != '\n')

def afterBlockComment : List Char → Option (List Char)
  | '*' :: '/' :: s => some s
  | _ :: s => afterBlockComment s
  | [] => none

def skip? (lines : Bool) : (fuel : Nat) → List Char → Option (List Char)
  | 0, s => some s
  | fuel + 1, s =>
    match s.dropWhile fun c => isSpace c || (lines && (c == '\n' || c == '\r')) with
    | '#' :: s => skip? lines fuel (skipToLineEnd s)
    | '/' :: '/' :: s => skip? lines fuel (skipToLineEnd s)
    | '/' :: '*' :: s => do skip? lines fuel (← afterBlockComment s)
    | s => some s

def skipLines? (s : List Char) : Option (List Char) := skip? true (s.length + 1) s

def skipSpaces? (s : List Char) : Option (List Char) := skip? false (s.length + 1) s

def simpleEscape? : Char → Option Char
  | 'n' => some '\n'
  | 'r' => some '\r'
  | 't' => some '\t'
  | 'b' => some '\x08'
  | 'f' => some '\x0c'
  | '"' => some '"'
  | '/' => some '/'
  | '\\' => some '\\'
  | _ => none

/-- The rest of a text in double quotes. A sign that would open a part of a template is doubled if
it opens none. -/
def quotedText : Piece (List Char)
  | '"' :: s => some ([], s)
  | '$' :: '$' :: '{' :: s => consed (some '$') (consed (some '{') (quotedText s))
  | '%' :: '%' :: '{' :: s => consed (some '%') (consed (some '{') (quotedText s))
  | '\\' :: 'u' :: a :: b :: c :: d :: s =>
    consed (charOfHex? [a, b, c, d]) (quotedText s)
  | '\\' :: 'U' :: a :: b :: c :: d :: e :: f :: g :: h :: s =>
    consed (charOfHex? [a, b, c, d, e, f, g, h]) (quotedText s)
  | '\\' :: c :: s => consed (simpleEscape? c) (quotedText s)
  | c :: s => if c = '\n' ∨ c = '\r' then none else consed (some c) (quotedText s)
  | [] => none

def isIdentStart (c : Char) : Bool := isIdentifierStart c || c == '_'

def isIdentChar (c : Char) : Bool := isIdentifierPart c || c == '-'

def identifier : Piece String := fun s =>
  match s with
  | c :: _ =>
    if isIdentStart c then
      some (String.ofList (s.takeWhile isIdentChar), s.dropWhile isIdentChar)
    else none
  | [] => none

def key : Piece Key := fun s =>
  match s with
  | '"' :: s => (quotedText s).map fun (text, s) => (⟨String.ofList text, true⟩, s)
  | s => (identifier s).map fun (name, s) => (⟨name, false⟩, s)

def isNumberChar (c : Char) : Bool := c.isAlphanum || c == '.' || c == '+' || c == '-'

def ofNumber? (s : List Char) : Option Expression :=
  if s.all Char.isDigit then some (.int (digitsValue s))
  else (Decimal.read? s).map fun x => .double (x.toDouble false)

def listItems (value : Piece Expression) : (fuel : Nat) → Piece (List Expression)
  | 0, _ => none
  | fuel + 1, s => do
    match ← skipLines? s with
    | ']' :: s => return ([], s)
    | s =>
      let (e, s) ← value s
      match ← skipLines? s with
      | ']' :: s => return ([e], s)
      | ',' :: s =>
        let (es, s) ← listItems value fuel s
        return (e :: es, s)
      | _ => none

def objectItems (value : Piece Expression) : (fuel : Nat) → Piece (List (Key × Expression))
  | 0, _ => none
  | fuel + 1, s => do
    match ← skipLines? s with
    | '}' :: s => return ([], s)
    | s =>
      let (k, s) ← key s
      match ← skipSpaces? s with
      | c :: s =>
        if c != '=' && c != ':' then none
        let (e, s) ← value (← skipSpaces? s)
        match ← skipSpaces? s with
        | '}' :: s => return ([(k, e)], s)
        | c :: s =>
          if c != ',' && c != '\n' && c != '\r' then none
          let (entries, s) ← objectItems value fuel s
          return ((k, e) :: entries, s)
        | [] => none
      | [] => none

def value : (depth : Nat) → Piece Expression
  | 0, _ => none
  | depth + 1, s =>
    match s with
    | '"' :: s => (quotedText s).map fun (text, s) => (.text (String.ofList text), s)
    | '[' :: s => (listItems (value depth) (s.length + 1) s).map fun (es, s) => (.list es, s)
    | '{' :: s =>
      (objectItems (value depth) (s.length + 1) s).map fun (es, s) => (.object (Assoc.ofList es), s)
    | c :: s =>
      if c.isDigit then
        (ofNumber? ((c :: s).takeWhile isNumberChar)).map fun e =>
          (e, (c :: s).dropWhile isNumberChar)
      else do
        let (word, s) ← identifier (c :: s)
        if word = "true" then return (.bool true, s)
        else if word = "false" then return (.bool false, s)
        else if word = "null" then return (.null, s)
        else none
    | [] => none

def attributes (fuel : Nat) (found : List (Key × Expression)) (s : List Char) :
    Option (List (Key × Expression)) :=
  match fuel with
  | 0 => none
  | fuel + 1 => do
    match ← skipLines? s with
    | [] => return found
    | s =>
      let (name, s) ← identifier s
      if (found.lookup ⟨name, false⟩).isSome then none
      match ← skipSpaces? s with
      | '=' :: s =>
        let (e, s) ← value (s.length + 1) (← skipSpaces? s)
        let found := found ++ [(⟨name, false⟩, e)]
        match ← skipSpaces? s with
        | [] => return found
        | '\n' :: s => attributes fuel found s
        | '\r' :: '\n' :: s => attributes fuel found s
        | _ => none
      | _ => none

def parse (input : String) : Option Expression :=
  (attributes (input.toList.length + 1) [] input.toList).map .object

end Cql.Hcl
