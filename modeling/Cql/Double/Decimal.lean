import Cql.Double.Rounding

namespace Cql

/-- The magnitude c · 10^e. -/
structure Decimal where
  coefficient : Nat
  exponent : Int
  deriving DecidableEq, Repr

namespace Decimal

def digits (x : Decimal) : List Char := Nat.toDigits 10 x.coefficient

def trimZeros : (fuel : Nat) → Decimal → Decimal
  | 0, x => x
  | fuel + 1, x =>
    if x.coefficient ≠ 0 ∧ x.coefficient % 10 = 0 then
      trimZeros fuel ⟨x.coefficient / 10, x.exponent + 1⟩
    else x

def pointPlace (x : Decimal) : Int := x.digits.length + x.exponent

/-- The double nearest to the number. What is far beyond the greatest double, or far below the
least one, is not worked out. -/
def toDouble (negative : Bool) (x : Decimal) : Double :=
  if x.coefficient = 0 then .ofMagnitude negative 0
  else if 400 < x.pointPlace then .infinity negative
  else if x.pointPlace < -400 then .ofMagnitude negative 0
  else .ofRatio negative (x.coefficient * Nat.pow 10 x.exponent.toNat)
    (Nat.pow 10 (-x.exponent).toNat)

end Decimal

namespace Double

/-- Every finite double is a decimal: 2^-k is 5^k · 10^-k. -/
def exactDecimal (d : Double) : Decimal :=
  if 0 ≤ d.exponent then ⟨d.num, 0⟩
  else ⟨d.significand * Nat.pow 5 (-d.exponent).toNat, d.exponent⟩

inductive Tie
  | away | even
  deriving DecidableEq, Repr

def gridNeighbours (tie : Tie) (d : Double) (e : Int) : List Decimal :=
  let n := d.num * Nat.pow 10 (-e).toNat
  let step := d.den * Nat.pow 10 e.toNat
  let below := n / step
  let twice := 2 * (n % step)
  if twice < step ∨ (twice = step ∧ tie = .even ∧ below % 2 = 0) then
    [⟨below, e⟩, ⟨below + 1, e⟩]
  else [⟨below + 1, e⟩, ⟨below, e⟩]

/-- Looks for a decimal that reads back as `d` on the grids 10^e, 10^(e-1) and so on, from coarse
to fine, so that the first one found has the fewest digits. -/
def searchGrids (tie : Tie) (d : Double) : (grids : Nat) → (e : Int) → Option Decimal
  | 0, _ => none
  | grids + 1, e =>
    match (d.gridNeighbours tie e).find? fun x => x.toDouble d.negative = d with
    | some x => some x
    | none => d.searchGrids tie grids (e - 1)

def powerAbove (d : Double) : Int :=
  (d.exponent + d.significand.log2 + 1) * 30103 / 100000 + 1

/-- The decimal with the fewest digits that reads back as the finite double `d`, of those the
nearest. -/
def shortest (tie : Tie) (d : Double) : Decimal :=
  if d.isZero then ⟨0, 0⟩
  else ((d.searchGrids tie 20 d.powerAbove).getD d.exactDecimal).trimZeros 400

end Double

end Cql
