import Cql.Scan
import Cql.Ty.Parser

namespace Cql

namespace Ty.Scanning

open Scan

section Types

variable (source : Source)

def name : Scan String := do
  skipBlanks source
  if (← peek source) = some '"' then
    advance 1
    return String.ofList (← quoted source '"' source.rounds)
  else return String.ofList (← run source (fun _ => 1) isNameChar)

def label (first : String) : Scan Label := do
  if ← eat source '.' then return ⟨some first, ← name source⟩ else return ⟨none, first⟩

def named (resolve : Resolver) (first : String) : Scan Ty :=
  match Scalar.ofName? first with
  | some known => return .scalar known
  | none => do
    let label ← label source first
    match resolve label.keyspace label.name with
    | some t => return t
    | none => throw (.refused (.unknownType label.text))

def opensFields (first : String) : Scan Bool :=
  if sameName first "userType" then eat source '<' else return false

def field (inner : Scan Ty) : Scan (String × Ty) := do
  let name ← name source
  expect source ':'
  return (name, ← inner)

def reader (resolve : Resolver) : (depth : Nat) → Scan Ty
  | 0 => throw .endless
  | depth + 1 => parsing do
    let first ← name source
    match Builder.ofName? first with
    | some .list => do
      expect source '<'
      let t ← reader resolve depth
      expect source '>'
      return .list t
    | some .set => do
      expect source '<'
      let t ← reader resolve depth
      expect source '>'
      return .set t
    | some .frozen => do
      expect source '<'
      let t ← reader resolve depth
      expect source '>'
      return t
    | some .map => do
      expect source '<'
      let k ← reader resolve depth
      expect source ','
      let v ← reader resolve depth
      expect source '>'
      return .map k v
    | some .tuple => do
      expect source '<'
      return .tuple (← Scan.list source (reader resolve depth) '>')
    | none => do
      if ← opensFields source first then
        return .user none (← Scan.list source (field source (reader resolve depth)) '>')
      else named source resolve first

end Types

def isFrozenText (input : String) : Scan Bool := do
  let s := trimStart input.toList
  match ← cut? s 0 6 with
  | some word =>
    if sameName (String.ofList word) "frozen" then
      let rest ← cut s 6 (utf8Length s)
      return (trimStart rest).head? == some '<'
    else return false
  | none => return false

end Ty.Scanning

def Ty.scan (resolve : Resolver) (input : String) (rounds : Nat) : Scan Ty :=
  let source : Source := ⟨.typeText, input, rounds⟩
  Scan.whole source (Ty.Scanning.reader source resolve rounds)

end Cql
