namespace Cql.Hex

def digit (n : Nat) : Char := "0123456789abcdef".toList.getD n '0'

def encode : List UInt8 → List Char
  | [] => []
  | b :: bs => digit (b.toNat / 16) :: digit (b.toNat % 16) :: encode bs

def digitValue? (c : Char) : Option Nat :=
  if '0' ≤ c ∧ c ≤ '9' then some (c.toNat - '0'.toNat)
  else if 'a' ≤ c ∧ c ≤ 'f' then some (c.toNat - 'a'.toNat + 10)
  else if 'A' ≤ c ∧ c ≤ 'F' then some (c.toNat - 'A'.toNat + 10)
  else none

/-- The byte of a pair: two digits, or a plus sign and one digit. -/
def pair? (a b : Char) : Option UInt8 :=
  if a = '+' then (digitValue? b).map UInt8.ofNat
  else do
    let high ← digitValue? a
    let low ← digitValue? b
    some (UInt8.ofNat (16 * high + low))

def decode? : List Char → Option (List UInt8)
  | [] => some []
  | [_] => none
  | a :: b :: s => do
    let byte ← pair? a b
    let rest ← decode? s
    some (byte :: rest)

def text (bytes : List UInt8) : String := "0x" ++ String.ofList (encode bytes)

end Cql.Hex
