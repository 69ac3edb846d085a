import Cql.Double.Decimal

/-!
The written forms of doubles. Values and messages have them positional, with no more digits than
it takes to read them back; JSON has an exponent where the number is very great or very small.
Reading takes a sign, digits with a point among them and an exponent, or the word for an infinity
or for what is no number.
-/

namespace Cql

namespace Decimal

private def zeros (n : Int) : List Char := List.replicate n.toNat '0'

def positional (x : Decimal) : List Char :=
  let p := x.pointPlace
  if 0 ≤ x.exponent then x.digits ++ zeros x.exponent
  else if 0 < p then x.digits.take p.toNat ++ '.' :: x.digits.drop p.toNat
  else '0' :: '.' :: zeros (-p) ++ x.digits

def scientific (x : Decimal) : List Char :=
  let e := x.pointPlace - 1
  let power := (if e < 0 then '-' else '+') :: Nat.toDigits 10 e.natAbs
  match x.digits with
  | [] => []
  | [d] => d :: 'e' :: power
  | d :: ds => d :: '.' :: ds ++ 'e' :: power

/-- As JSON has it: with a point in every positional number, and positional if the point stands at
most sixteen places behind the first digit and fewer than five before it. -/
def json (x : Decimal) : List Char :=
  let p := x.pointPlace
  if p ≤ 16 ∧ 0 ≤ x.exponent then x.positional ++ ['.', '0']
  else if p ≤ 16 ∧ -5 < p then x.positional
  else x.scientific

end Decimal

namespace Double

def text (d : Double) : String :=
  let sign := if d.negative then "-" else ""
  if d.isNaN then "NaN"
  else if d.isInfinite then sign ++ "inf"
  else sign ++ String.ofList (d.shortest .away).positional

def jsonText (d : Double) : String :=
  (if d.negative then "-" else "") ++ String.ofList (d.shortest .even).json

end Double

def digitsValue (ds : List Char) : Nat := ds.foldl (fun n c => 10 * n + (c.toNat - '0'.toNat)) 0

def takeSign : List Char → Bool × List Char
  | '-' :: s => (true, s)
  | '+' :: s => (false, s)
  | s => (false, s)

namespace Decimal

def readExponent? : List Char → Option Int
  | [] => some 0
  | c :: s =>
    let (negative, ds) := takeSign s
    if (c = 'e' ∨ c = 'E') ∧ ds ≠ [] ∧ ds.all Char.isDigit then
      let e : Int := digitsValue ds
      some (if negative then -e else e)
    else none

def read? (s : List Char) : Option Decimal :=
  let whole := s.takeWhile Char.isDigit
  let (part, rest) :=
    match s.dropWhile Char.isDigit with
    | '.' :: s => (s.takeWhile Char.isDigit, s.dropWhile Char.isDigit)
    | s => ([], s)
  if whole.isEmpty && part.isEmpty then none
  else (readExponent? rest).map fun e => ⟨digitsValue (whole ++ part), e - part.length⟩

end Decimal

namespace Double

def read? (s : String) : Option Double :=
  let (negative, rest) := takeSign s.toList
  let word := String.ofList (rest.map Char.toLower)
  if word = "inf" ∨ word = "infinity" then some (infinity negative)
  else if word = "nan" then some (nan negative)
  else (Decimal.read? rest).map (·.toDouble negative)

end Double

end Cql
