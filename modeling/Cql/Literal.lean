import Cql.Create
import Cql.Hex
import Cql.Reader
import Cql.Text.Alphanumeric

/-!
Reading literals of a known type: `0`, `'text'`, `0xcafe`, `[1, 2]`, `(0, 'a')`, and in braces sets,
maps and user type values. Composite values are built by `Ty.create`, so what is read is checked
and ordered as any other value.
-/

namespace Cql

structure Token where
  text : String
  quoted : Bool
  deriving DecidableEq, Repr

namespace Token

def isDelimiter (c : Char) : Bool := c == ',' || c == ':' || c == ')' || c == ']' || c == '}'

def reader : Reader Token := fun s =>
  match trimStart s with
  | '\'' :: s => do
    let (text, s) ← Reader.quoted '\'' s
    return (⟨String.ofList text, true⟩, s)
  | s =>
    let run := s.takeWhile (!isDelimiter ·)
    if (trim run).isEmpty then .error (.unexpected (s.dropWhile (!isDelimiter ·)))
    else .ok (⟨String.ofList (trim run), false⟩, s.dropWhile (!isDelimiter ·))

/-- The bytes of a blob: those that digits behind `0x` denote, or those of the text itself. -/
def toBlob (token : Token) : Except Fault Value :=
  let bytes := .ok (.blob token.text.toUTF8.data.toList)
  match token.text.toList with
  | '0' :: x :: hex =>
    if !token.quoted && (x == 'x' || x == 'X') then
      match Hex.decode? hex with
      | some bytes => .ok (.blob bytes)
      | none => .error (.notBlob (String.ofList hex))
    else bytes
  | _ => bytes

def toBool (token : Token) : Except Fault Value :=
  match foldCase token.text with
  | "true" => .ok (.bool true)
  | "false" => .ok (.bool false)
  | _ => .error (.notBoolean token.text)

def toLong (token : Token) : Except Fault Value :=
  match Numeral.read Width.bigint.lo Width.bigint.hi token.text with
  | .ok n => (Fixed.ofInt .bigint n).map .long
  | .error fault => .error (.numeral fault)

def toValue (s : Scalar) (token : Token) : Except Fault Value :=
  match s with
  | .tinyint | .smallint | .int | .bigint | .counter => s.create [.text token.text]
  | .double | .float =>
    match Double.read? token.text with
    | some d => .ok (.double d)
    | none => .error (.notDouble token.text)
  | .boolean => token.toBool
  | .timestamp | .date | .time => token.toLong
  | .blob => token.toBlob
  | _ => .ok (.text token.text)

end Token

namespace Literal

/-- What is left after `null` in any case, if it comes next and is not the start of a longer
word. -/
def null? (s : List Char) : Option (List Char) :=
  match trimStart s with
  | n :: u :: l :: l' :: rest =>
    if [n, u, l, l'].map Char.toLower = ['n', 'u', 'l', 'l'] then
      match rest with
      | c :: _ => if isAlphanumeric c || c == '_' then none else some rest
      | [] => some []
    else none
  | _ => none

/-- The name of a field: everything up to the next double quote, if it starts with one, or letters,
digits and underscores of any script. -/
def nameReader : Reader String := fun s =>
  match trimStart s with
  | '"' :: s =>
    match s.dropWhile (· != '"') with
    | _ :: rest => .ok (String.ofList (s.takeWhile (· != '"')), rest)
    | [] => .error (.unexpected s)
  | s =>
    let isPart c := isAlphanumeric c || c == '_'
    if (s.takeWhile isPart).isEmpty then .error (.unexpected s)
    else .ok (String.ofList (s.takeWhile isPart), s.dropWhile isPart)

def made (value : Except Fault Value) (s : List Char) : Except Stop (Value × List Char) :=
  match value with
  | .ok v => .ok (v, s)
  | .error fault => .error (.refused fault)

def entryReader (key value : Reader Value) : Reader (List Value) := fun s => do
  let (k, s) ← key s
  let s ← Reader.expect ':' s
  let (v, s) ← value s
  return ([k, v], s)

def fieldReader (fields : List (String × Reader Value)) : Reader (List Value) := fun s => do
  let (name, s) ← nameReader s
  match fields.lookup name with
  | some value => do
    let s ← Reader.expect ':' s
    let (v, s) ← value s
    return ([.text name, v], s)
  | none => throw (.refused (.unknownField name))

mutual

def reader (input : String) (t : Ty) : Reader Value := fun s =>
  match null? s with
  | some s => .ok (.null, s)
  | none =>
    match t with
    | .scalar k => do
      let (token, s) ← Token.reader s
      made (token.toValue k) s
    | .list u => do
      let (xs, s) ← Reader.list (reader input u) ']' (← Reader.expect '[' s)
      made (Ty.create (.list u) xs) s
    | .set u => do
      let (xs, s) ← Reader.list (reader input u) '}' (← Reader.expect '{' s)
      made (Ty.create (.set u) xs) s
    | .map k v => do
      let entry := entryReader (reader input k) (reader input v)
      let (xs, s) ← Reader.list entry '}' (← Reader.expect '{' s)
      made (Ty.create (.map k v) xs.flatten) s
    | .tuple ts => do
      let s ← Reader.expect '(' s
      let (xs, s) ← match Reader.eat? ')' s with
        | some s => .ok ([], s)
        | none => slotsReader input ts.length ts s
      made (Ty.create (.tuple ts) xs) s
    | .user label fields => do
      let field := fieldReader (fieldReaders input fields)
      let (xs, s) ← Reader.list field '}' (← Reader.expect '{' s)
      made (Ty.create (.user label fields) xs.flatten) s

def slotsReader (input : String) (size : Nat) : (ts : List Ty) → Reader (List Value)
  | [], _ => .error (.refused (.tupleTooLong input size))
  | t :: ts, s => do
    let (x, s) ← reader input t s
    match Reader.eat? ')' s with
    | some s => return ([x], s)
    | none =>
      let (xs, s) ← slotsReader input size ts (← Reader.expect ',' s)
      return (x :: xs, s)

def fieldReaders (input : String) : List (String × Ty) → List (String × Reader Value)
  | [] => []
  | (name, t) :: fields => (name, reader input t) :: fieldReaders input fields

end

end Literal

def Ty.parseLiteral (t : Ty) (input : String) : Except Fault Value :=
  Reader.whole .literal (Literal.reader input t) input

end Cql
