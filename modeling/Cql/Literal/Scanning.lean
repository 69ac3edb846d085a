import Cql.Literal
import Cql.Scan

namespace Cql

namespace Literal.Scanning

open Scan

variable (source : Source)

def null : Scan Bool := do
  skipBlanks source
  let rest ← cut source.chars (← position) source.size
  match ← cut? rest 0 4 with
  | some word =>
    if sameName (String.ofList word) "null" then
      let behind ← cut rest 4 (utf8Length rest)
      if behind.head?.any fun c => isAlphanumeric c || c == '_' then return false
      else
        advance 4
        return true
    else return false
  | none => return false

def token : Scan Token := do
  skipBlanks source
  if ← eat source '\'' then return ⟨String.ofList (← quoted source '\'' source.rounds), true⟩
  else
    let start ← position
    skipWhile source Char.utf8Size (!Token.isDelimiter ·) source.rounds
    let text := trim (← cut source.chars start (← position))
    if text.isEmpty then unexpected source else return ⟨String.ofList text, false⟩

def name : Scan String := do
  skipBlanks source
  if ← eat source '"' then
    let start ← position
    let rest ← cut source.chars start source.size
    if '"' ∈ rest then
      let stop := start + utf8Length (rest.takeWhile (· != '"'))
      moveTo (stop + 1)
      return String.ofList (← cut source.chars start stop)
    else unexpected source
  else
    return String.ofList (← run source Char.utf8Size fun c => isAlphanumeric c || c == '_')

def opensDigits (s : List Char) : Bool := ['0', 'x'].isPrefixOf s || ['0', 'X'].isPrefixOf s

def blob (token : Token) : Scan Value := do
  if !token.quoted && opensDigits token.text.toList then
    let hex ← cut token.text.toList 2 (utf8Length token.text.toList)
    if utf8Length hex % 2 ≠ 0 || hex.any fun c => 128 ≤ c.toNat then
      throw (.refused (.notBlob (String.ofList hex)))
    else return .blob (← hexBytes (.notBlob (String.ofList hex)) hex)
  else return .blob token.text.toUTF8.data.toList

def scalar (k : Scalar) (token : Token) : Scan Value :=
  match k with
  | .blob => blob token
  | k => check (token.toValue k)

def entry (key value : Scan Value) : Scan (List Value) := do
  let k ← key
  expect source ':'
  return [k, ← value]

def field (fields : List (String × Ty)) (value : Ty → Scan Value) : Scan (List Value) := do
  let name ← name source
  match fields.lookup name with
  | some t => do
    expect source ':'
    return [.text name, ← value t]
  | none => throw (.refused (.unknownField name))

def slots (elements : List Ty) (value : Ty → Scan Value) :
    (rounds index : Nat) → Scan (List Value)
  | 0, _ => throw .endless
  | rounds + 1, index =>
    match elements[index]? with
    | none => throw (.refused (.tupleTooLong source.input elements.length))
    | some t => do
      let x ← value t
      if ← eat source ')' then return [x]
      else
        expect source ','
        return x :: (← slots elements value rounds (index + 1))

def tuple (elements : List Ty) (value : Ty → Scan Value) : Scan (List Value) := do
  if ← eat source ')' then return [] else slots source elements value source.rounds 0

def reader : (depth : Nat) → Ty → Scan Value
  | 0, _ => throw .endless
  | depth + 1, t => parsing do
    if ← null source then return .null
    else
      match t with
      | .scalar k => do scalar k (← token source)
      | .list u => do
        expect source '['
        let xs ← list source (reader depth u) ']'
        check (Ty.create (.list u) xs)
      | .set u => do
        expect source '{'
        let xs ← list source (reader depth u) '}'
        check (Ty.create (.set u) xs)
      | .map k v => do
        expect source '{'
        let xs ← list source (entry source (reader depth k) (reader depth v)) '}'
        check (Ty.create (.map k v) xs.flatten)
      | .tuple ts => do
        expect source '('
        let xs ← tuple source ts (reader depth)
        check (Ty.create (.tuple ts) xs)
      | .user label fields => do
        expect source '{'
        let xs ← list source (field source fields (reader depth)) '}'
        check (Ty.create (.user label fields) xs.flatten)

end Literal.Scanning

def Ty.scanLiteral (t : Ty) (input : String) (rounds : Nat) : Scan Value :=
  let source : Source := ⟨.literal, input, rounds⟩
  Scan.whole source (Literal.Scanning.reader source rounds t)

end Cql
