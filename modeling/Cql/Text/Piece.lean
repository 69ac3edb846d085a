import Cql.Hex

namespace Cql

abbrev Piece (α : Type) := List Char → Option (α × List Char)

def isSpace (c : Char) : Bool := c == ' ' || c == '\t'

def consed (c : Option Char) (rest : Option (List Char × List Char)) :
    Option (List Char × List Char) := do
  let c ← c
  let (text, s) ← rest
  return (c :: text, s)

def charOfCode? (n : Nat) : Option Char :=
  if h : n.isValidChar then some (Char.ofNatAux n h) else none

def charOfHex? (digits : List Char) : Option Char := do
  let values ← digits.mapM Hex.digitValue?
  charOfCode? (values.foldl (fun n d => 16 * n + d) 0)

end Cql
