import Cql.Scan
import Cql.Validator

namespace Cql

namespace Validator

namespace Scanning

open Scan

variable {α : Type} (source : Source)

def word : Scan String := do
  skipBlanks source
  return String.ofList (← run source (fun _ => 1) isWordChar)

def nextClass : Scan String := parsing do
  return stripPackage (← word source)

def hexName : Scan String := do
  let hex ← word source
  if utf8Length hex.toList % 2 ≠ 0 then throw (.refused (.notHexName hex))
  else
    let bytes ← hexBytes (.notHexName hex) hex.toList
    match String.fromUTF8? ⟨bytes.toArray⟩ with
    | some name => return name
    | none => throw (.refused (.notHexName hex))

def further (item : Scan α) : (rounds : Nat) → Scan (List α)
  | 0 => throw .endless
  | rounds + 1 => do
    if ← eat source ',' then
      let x ← item
      return x :: (← further item rounds)
    else return []

def field (inner : Scan Ty) : Scan (String × Ty) := do
  let name ← hexName source
  expect source ':'
  return (name, ← inner)

def user (inner : Scan Ty) : Scan Ty := do
  let keyspace ← word source
  expect source ','
  let name ← hexName source
  let fields ← further source (field source inner) source.rounds
  return .user (some ⟨some keyspace, name⟩) fields

def parameters (inner : Scan Ty) (className : String) : Scan Ty := do
  match className with
  | "ListType" => return .list (← inner)
  | "SetType" => return .set (← inner)
  | "MapType" => do
    let k ← inner
    expect source ','
    return .map k (← inner)
  | "FrozenType" | "ReversedType" => inner
  | "TupleType" => do
    let t ← inner
    return .tuple (t :: (← further source inner source.rounds))
  | "UserType" => user source inner
  | _ => throw (.refused (.unsupportedClass className))

def body (inner : Scan Ty) (className : String) : Scan Ty :=
  match scalars.lookup className with
  | some k => return .scalar k
  | none => do
    expect source '('
    let t ← parameters source inner className
    expect source ')'
    return t

def tyReader : (depth : Nat) → Scan Ty
  | 0 => throw .endless
  | depth + 1 => parsing do
    body source (tyReader depth) (← nextClass source)

def unwrap (reversed frozen : Bool) (className : String) :
    (rounds : Nat) → Scan (Bool × Bool × String)
  | 0 => throw .endless
  | rounds + 1 => do
    if className = "ReversedType" && !reversed && !frozen then
      expect source '('
      unwrap true frozen (← nextClass source) rounds
    else if className = "FrozenType" && !frozen then
      expect source '('
      unwrap reversed true (← nextClass source) rounds
    else return (reversed, frozen, className)

def close : (wrappers : Nat) → Scan Unit
  | 0 => return
  | wrappers + 1 => do
    expect source ')'
    close wrappers

def reader : Scan Validator := do
  let (reversed, frozen, className) ← unwrap source false false (← nextClass source) source.rounds
  let ty ← body source (tyReader source source.rounds) className
  close source (reversed.toNat + frozen.toNat)
  return ⟨ty, reversed, frozen⟩

end Scanning

def scan (input : String) (rounds : Nat) : Scan Validator :=
  let source : Source := ⟨.validator, input, rounds⟩
  Scan.whole source (Scanning.reader source)

end Validator

end Cql
