/-!
Doubles as 64-bit patterns: their class, their exact value m · 2^q, and their total order, in
which numbers stand as numbers do, -0.0 stands before 0.0, and all patterns of NaN are one value
above positive infinity.
-/

namespace Cql

structure Double where
  bits : UInt64
  deriving DecidableEq, Repr

namespace Double

def negative (d : Double) : Bool := 1 <<< 63 ≤ d.bits.toNat

/-- The pattern without its sign. Among numbers of one sign it grows with the magnitude. -/
def magnitude (d : Double) : Nat := d.bits.toNat % 1 <<< 63

def infinite : Nat := 2047 <<< 52

def isNaN (d : Double) : Bool := infinite < d.magnitude

def isInfinite (d : Double) : Bool := d.magnitude = infinite

def isFinite (d : Double) : Bool := d.magnitude < infinite

def isZero (d : Double) : Bool := d.magnitude = 0

def significand (d : Double) : Nat :=
  if d.magnitude >>> 52 = 0 then d.magnitude else 1 <<< 52 + d.magnitude % 1 <<< 52

def exponent (d : Double) : Int := (max (d.magnitude >>> 52) 1 : Nat) - 1075

def ofMagnitude (negative : Bool) (magnitude : Nat) : Double :=
  ⟨UInt64.ofNat (magnitude % 1 <<< 63 + if negative then 1 <<< 63 else 0)⟩

def zero : Double := ⟨0⟩

def nan (negative : Bool) : Double := ofMagnitude negative (infinite + 1 <<< 51)

def infinity (negative : Bool) : Double := ofMagnitude negative infinite

def canonicalBits (d : Double) : Int :=
  if d.isNaN then (infinite + 1 <<< 51 : Nat)
  else if d.negative then (d.bits.toNat : Int) - (1 <<< 64 : Nat)
  else d.bits.toNat

/-- An integer that is ordered as the numbers are. Both zeros have the same. -/
def orderKey (d : Double) : Int := if d.negative then -d.magnitude else d.magnitude

def lt (a b : Double) : Bool := !a.isNaN && !b.isNaN && a.orderKey < b.orderKey

def le (a b : Double) : Bool := !a.isNaN && !b.isNaN && a.orderKey ≤ b.orderKey

/-- The total order: that of numbers, then that of canonical patterns. -/
def cmp (a b : Double) : Ordering :=
  if a.lt b then .lt
  else if b.lt a then .gt
  else compare a.canonicalBits b.canonicalBits

/-- The exact value of a finite double is `num / den` with the sign of the double. -/
def num (d : Double) : Nat := d.significand <<< d.exponent.toNat

def den (d : Double) : Nat := 1 <<< (-d.exponent).toNat

def truncated (d : Double) : Int :=
  let size := d.num / d.den
  if d.negative then -(size : Int) else size

/-- The integer next to the value on the side of zero, or the bound beyond which it lies; zero for
what is no number. -/
def clamped (lo hi : Int) (d : Double) : Int :=
  if d.isNaN then 0
  else if d.isInfinite then if d.negative then lo else hi
  else max lo (min d.truncated hi)

end Double

end Cql
