import Cql.Double

namespace Cql

def roundHalfEven (n d : Nat) : Nat :=
  let q := n / d
  let r := 2 * (n % d)
  if r < d then q
  else if d < r then q + 1
  else if q % 2 = 0 then q else q + 1

namespace Double

/-- The power q such that n / (d · 2^q) has 53 binary digits before the point, or -1074 if that is
less than the least power of doubles. -/
def gridExponent (n d : Nat) : Int :=
  let low : Int := (n.log2 : Int) - d.log2 - 53
  let fits := n <<< (-low).toNat < d <<< low.toNat <<< 53
  max (if fits then low else low + 1) (-1074)

/-- The pattern of the double nearest to the positive `n / d`. A significand that is rounded up
to the next power of two carries into the exponent as it should. -/
def nearestMagnitude (n d : Nat) : Nat :=
  let q := gridExponent n d
  let m := roundHalfEven (n <<< (-q).toNat) (d <<< q.toNat)
  min ((q + 1074).toNat <<< 52 + m) infinite

def ofRatio (negative : Bool) (n d : Nat) : Double :=
  ofMagnitude negative (if n = 0 then 0 else nearestMagnitude n d)

def ofInt (n : Int) : Double := ofRatio (n < 0) n.natAbs 1

def wholePart (d : Double) : Double :=
  if d.isFinite then ofRatio d.negative (d.num / d.den) 1 else d

end Double

end Cql
