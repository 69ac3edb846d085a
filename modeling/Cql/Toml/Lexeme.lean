import Cql.Datum
import Cql.Double.Text
import Cql.Text.Piece
import Cql.Toml.Inline

namespace Cql.Toml

def skipSpaces (s : List Char) : List Char := s.dropWhile isSpace

def lineEnd? : List Char → Option (List Char)
  | '\n' :: s => some s
  | '\r' :: '\n' :: s => some s
  | _ => none

def skipComment? (s : List Char) : Option (List Char) :=
  match skipSpaces s with
  | '#' :: s =>
    let rest := s.dropWhile fun c => !isControl c
    if rest.isEmpty || (lineEnd? rest).isSome then some rest else none
  | s => some s

def skipLines? : (fuel : Nat) → List Char → Option (List Char)
  | 0, s => some s
  | fuel + 1, s => do
    let s ← skipComment? s
    match lineEnd? s with
    | some s => skipLines? fuel s
    | none => some s

def skipBlankLines? (s : List Char) : Option (List Char) := skipLines? (s.length + 1) s

def simpleEscape? : Char → Option Char
  | 'b' => some '\x08'
  | 't' => some '\t'
  | 'n' => some '\n'
  | 'f' => some '\x0c'
  | 'r' => some '\r'
  | '"' => some '"'
  | '\\' => some '\\'
  | _ => none

def basicText : Piece (List Char)
  | '"' :: s => some ([], s)
  | '\\' :: 'u' :: a :: b :: c :: d :: s => consed (charOfHex? [a, b, c, d]) (basicText s)
  | '\\' :: 'U' :: a :: b :: c :: d :: e :: f :: g :: h :: s =>
    consed (charOfHex? [a, b, c, d, e, f, g, h]) (basicText s)
  | '\\' :: c :: s => consed (simpleEscape? c) (basicText s)
  | c :: s => if isControl c then none else consed (some c) (basicText s)
  | [] => none

def literalText : Piece (List Char)
  | '\'' :: s => some ([], s)
  | c :: s => if isControl c then none else consed (some c) (literalText s)
  | [] => none

/-- The end of a text in triple quotes, in which up to two quotes may stand directly before the
closing ones. -/
def tripleEnd? (q : Char) : List Char → Option (List Char × List Char)
  | a :: b :: c :: s =>
    if a = q ∧ b = q ∧ c = q then
      match s with
      | d :: e :: s =>
        if d = q ∧ e = q then some ([q, q], s)
        else if d = q then some ([q], e :: s)
        else some ([], d :: e :: s)
      | [d] => if d = q then some ([q], []) else some ([], [d])
      | [] => some ([], [])
    else none
  | _ => none

def escapesLineEnd (s : List Char) : Bool := (lineEnd? (skipSpaces s)).isSome

/-- The rest of a text in triple double quotes. After an escaped line end, `skipping`, blanks and
line ends are left out up to the next other character. -/
def multilineBasicText (skipping : Bool) : Piece (List Char)
  | [] => none
  | '\\' :: 'u' :: a :: b :: c :: d :: s =>
    consed (charOfHex? [a, b, c, d]) (multilineBasicText false s)
  | '\\' :: 'U' :: a :: b :: c :: d :: e :: f :: g :: h :: s =>
    consed (charOfHex? [a, b, c, d, e, f, g, h]) (multilineBasicText false s)
  | '\r' :: '\n' :: s =>
    if skipping then multilineBasicText true s
    else consed (some '\n') (multilineBasicText false s)
  | '\\' :: c :: s =>
    if escapesLineEnd (c :: s) then multilineBasicText true (c :: s)
    else consed (simpleEscape? c) (multilineBasicText false s)
  | c :: s =>
    match tripleEnd? '"' (c :: s) with
    | some found => some found
    | none =>
      if skipping && (isSpace c || c == '\n') then multilineBasicText true s
      else if isControl c && c != '\n' then none
      else consed (some c) (multilineBasicText false s)

def multilineLiteralText : Piece (List Char)
  | [] => none
  | '\r' :: '\n' :: s => consed (some '\n') (multilineLiteralText s)
  | c :: s =>
    match tripleEnd? '\'' (c :: s) with
    | some found => some found
    | none =>
      if isControl c && c != '\n' then none else consed (some c) (multilineLiteralText s)

def afterLineEnd (s : List Char) : List Char := (lineEnd? s).getD s

def quotedText : Piece String := fun s => do
  let (text, s) ← match s with
    | '"' :: '"' :: '"' :: s => multilineBasicText false (afterLineEnd s)
    | '\'' :: '\'' :: '\'' :: s => multilineLiteralText (afterLineEnd s)
    | '"' :: s => basicText s
    | '\'' :: s => literalText s
    | _ => none
  return (String.ofList text, s)

def keyPart : Piece String := fun s =>
  match s with
  | '"' :: s => (basicText s).map fun (text, s) => (String.ofList text, s)
  | '\'' :: s => (literalText s).map fun (text, s) => (String.ofList text, s)
  | s =>
    if (s.takeWhile isKeyChar).isEmpty then none
    else some (String.ofList (s.takeWhile isKeyChar), s.dropWhile isKeyChar)

def keyParts : (fuel : Nat) → Piece (List String)
  | 0, _ => none
  | fuel + 1, s => do
    let (part, s) ← keyPart (skipSpaces s)
    match skipSpaces s with
    | '.' :: s =>
      let (parts, s) ← keyParts fuel s
      return (part :: parts, s)
    | s => return ([part], s)

def key : Piece (List String) := keyParts 79

def plainDigits? (isDigit : Char → Bool) : List Char → Option (List Char)
  | [] => none
  | [c] => if isDigit c then some [c] else none
  | c :: '_' :: s => if isDigit c then (plainDigits? isDigit s).map (c :: ·) else none
  | c :: s => if isDigit c then (plainDigits? isDigit s).map (c :: ·) else none

def wholeDigits? (s : List Char) : Option (List Char) := do
  let ds ← plainDigits? Char.isDigit s
  if ds.head? == some '0' && ds.length != 1 then none else some ds

def basedInt? (base : Nat) (s : List Char) : Option Int := do
  let isDigit (c : Char) : Bool := (Hex.digitValue? c).any (· < base)
  let ds ← plainDigits? isDigit s
  let values ← ds.mapM Hex.digitValue?
  return (values.foldl (fun n d => base * n + d) 0 : Nat)

def int? (s : List Char) : Option Int :=
  match s with
  | '0' :: 'x' :: s => basedInt? 16 s
  | '0' :: 'o' :: s => basedInt? 8 s
  | '0' :: 'b' :: s => basedInt? 2 s
  | s => do
    let (negative, s) := takeSign s
    let n : Int := digitsValue (← wholeDigits? s)
    return if negative then -n else n

def isExponentMark (c : Char) : Bool := c == 'e' || c == 'E'

def exponent? (s : List Char) : Option Int := do
  let (negative, s) := takeSign s
  let e : Int := digitsValue (← plainDigits? Char.isDigit s)
  return if negative then -e else e

/-- A float with a point, an exponent or both; a number too great for a double is refused, but
only if it has no minus. -/
def float? (s : List Char) : Option Double := do
  let (negative, s) := takeSign s
  match s with
  | ['i', 'n', 'f'] => return .infinity negative
  | ['n', 'a', 'n'] => return .nan negative
  | s =>
    let mantissa := s.takeWhile (!isExponentMark ·)
    let whole ← wholeDigits? (mantissa.takeWhile (· != '.'))
    let part ← match mantissa.dropWhile (· != '.') with
      | [] => some []
      | _ :: part => plainDigits? Char.isDigit part
    let exponent : Int ← match s.dropWhile (!isExponentMark ·) with
      | [] => if part.isEmpty then none else some 0
      | _ :: rest => exponent? rest
    let x : Decimal := ⟨digitsValue (whole ++ part), exponent - part.length⟩
    let d := x.toDouble negative
    if d = .infinity false then none else return d

def isWordChar (c : Char) : Bool := c.isAlphanum || c == '_' || c == '+' || c == '-' || c == '.'

def ofWord? (word : List Char) : Option Datum :=
  if word = "true".toList then some (.bool true)
  else if word = "false".toList then some (.bool false)
  else
    match int? word with
    | some n => (Fixed.ofInt? .bigint n).map .int
    | none => (float? word).map .double

def word : Piece Datum := fun s =>
  (ofWord? (s.takeWhile isWordChar)).map fun d => (d, s.dropWhile isWordChar)

end Cql.Toml
