import Cql.Fault
import Cql.Double.Text

/-!
Integers in decimal digits, read from left to right within bounds: the first character that is no
digit, or the first digit that leads out of bounds, decides why a text is refused.
-/

namespace Cql

namespace Numeral

/-- Appends digits to the number read so far. With `negative`, digits count downward. -/
def readDigits (lo hi : Int) (negative : Bool) : List Char → Int → Except NumeralFault Int
  | [], n => .ok n
  | c :: s, n =>
    if c.isDigit then
      let digit : Int := c.toNat - '0'.toNat
      let next := if negative then 10 * n - digit else 10 * n + digit
      if next < lo then .error .tooSmall
      else if hi < next then .error .tooLarge
      else readDigits lo hi negative s next
    else .error .invalidDigit

def read (lo hi : Int) (s : String) : Except NumeralFault Int :=
  match s.toList with
  | [] => .error .empty
  | cs =>
    let (negative, ds) := takeSign cs
    if ds.isEmpty then .error .invalidDigit else readDigits lo hi negative ds 0

end Numeral

end Cql
