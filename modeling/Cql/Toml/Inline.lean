import Cql.Datum
import Cql.Double.Text
import Cql.Text.Enclosed

namespace Cql.Toml

def isControl (c : Char) : Bool := (c.toNat < 0x20 && c != '\t') || c == '\x7f'

def longestRun (c : Char) (run : Nat) : List Char → Nat
  | [] => run
  | d :: s => if d = c then longestRun c (run + 1) s else max run (longestRun c 0 s)

def hexDigit (n : Nat) : Char := (Nat.digitChar n).toUpper

def escapeChar (multiline : Bool) (c : Char) : List Char :=
  if c = '\x08' then ['\\', 'b']
  else if c = '\t' then ['\\', 't']
  else if c = '\n' then if multiline then ['\n'] else ['\\', 'n']
  else if c = '\x0c' then ['\\', 'f']
  else if c = '\r' then ['\\', 'r']
  else if c = '"' then ['\\', '"']
  else if c = '\\' then ['\\', '\\']
  else if isControl c then
    ['\\', 'u', '0', '0', hexDigit (c.toNat / 16), hexDigit (c.toNat % 16)]
  else [c]

/-- A text between double quotes, or between triple ones: there up to two quotes in a row, of which
`quotes` are behind us, stay as they are. -/
def escape (multiline : Bool) (quotes : Nat) : List Char → List Char
  | [] => []
  | c :: s =>
    if c = '"' ∧ multiline ∧ quotes < 2 then c :: escape multiline (quotes + 1) s
    else escapeChar multiline c ++ escape multiline 0 s

/-- A text in quotes that need no escapes if there are any, double ones before single ones and
those of one line before triple ones. Triple quotes of a text of several lines stand on a line of
their own. -/
def quote (s : String) : String :=
  let cs := s.toList
  let newline := cs.contains '\n'
  let controls := cs.any fun c => isControl c && c != '\n'
  let escapes := controls || cs.contains '\\'
  let doubles := longestRun '"' 0 cs
  let singles := longestRun '\'' 0 cs
  let start := if newline then "\n" else ""
  let multiline := "\"\"\"" ++ start ++ String.ofList (escape true 0 cs) ++ "\"\"\""
  if !escapes && doubles == 0 && !newline then "\"" ++ String.ofList (escape false 0 cs) ++ "\""
  else if !controls && singles == 0 && !newline then "'" ++ s ++ "'"
  else if !escapes && doubles ≤ 2 then multiline
  else if !controls && singles ≤ 2 then "'''" ++ start ++ s ++ "'''"
  else if newline then multiline
  else "\"" ++ String.ofList (escape false 0 cs) ++ "\""

def isKeyChar (c : Char) : Bool := c.isAlphanum || c == '_' || c == '-'

def keyText (s : String) : String :=
  let cs := s.toList
  if cs ≠ [] ∧ cs.all isKeyChar then s
  else if cs.any (fun c => c == '"' || c == '\\') &&
      cs.all (fun c => c != '\'' && !isControl c) then "'" ++ s ++ "'"
  else "\"" ++ String.ofList (escape false 0 cs) ++ "\""

/-- A number with a point or an exponent of its own, so that it is read back as a float. -/
def floatText (d : Double) : String :=
  if d.isNaN then "nan"
  else if d.isFinite && 0 ≤ (d.shortest .away).exponent then d.text ++ ".0"
  else d.text

mutual

def inlineText : Datum → String
  | .bool b => toString b
  | .int n => n.text
  | .double d => floatText d
  | .text s => quote s
  | .array items => enclosed '[' ']' (itemTexts items)
  | .table entries => inBraces (entryTexts entries)

def itemTexts : List Datum → List String
  | [] => []
  | x :: xs => inlineText x :: itemTexts xs

def entryTexts : List (String × Datum) → List String
  | [] => []
  | (name, x) :: entries => (keyText name ++ " = " ++ inlineText x) :: entryTexts entries

end

end Cql.Toml
