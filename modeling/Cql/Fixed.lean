import Cql.Numeral

/-!
Integers of a fixed width. An operation gives the exact result if that lies within the width and
refuses it otherwise; nothing wraps around.
-/

namespace Cql

structure Fixed (w : Width) where
  val : Int
  lo_le : w.lo ≤ val
  le_hi : val ≤ w.hi
  deriving DecidableEq, Repr

/-- An integer of the host language, as drivers hand it over. -/
abbrev Long := Fixed .bigint

namespace Fixed

variable {w : Width}

@[ext] theorem ext {a b : Fixed w} (same : a.val = b.val) : a = b := by
  cases a
  cases b
  simp_all

def ofInt? (w : Width) (n : Int) : Option (Fixed w) :=
  if h : w.lo ≤ n ∧ n ≤ w.hi then some ⟨n, h.1, h.2⟩ else none

def checked (fault : Fault) (n : Int) : Except Fault (Fixed w) :=
  match ofInt? w n with
  | some a => .ok a
  | none => .error fault

theorem ofInt?_eq_some_iff {n : Int} {a : Fixed w} : ofInt? w n = some a ↔ a.val = n := by
  constructor
  · intro h
    unfold ofInt? at h
    split at h
    · exact (Option.some.inj h) ▸ rfl
    · contradiction
  · intro h
    subst h
    exact dif_pos ⟨a.lo_le, a.le_hi⟩

theorem ofInt?_eq_none_iff {n : Int} : ofInt? w n = none ↔ n < w.lo ∨ w.hi < n := by
  unfold ofInt?
  split <;> simp <;> omega

theorem checked_eq_ok_iff {fault : Fault} {n : Int} {a : Fixed w} :
    checked fault n = .ok a ↔ a.val = n := by
  rw [← ofInt?_eq_some_iff]
  unfold checked
  cases ofInt? w n <;> simp

theorem checked_eq_error_iff {fault cause : Fault} {n : Int} :
    checked (w := w) fault n = .error cause ↔ cause = fault ∧ (n < w.lo ∨ w.hi < n) := by
  rw [← ofInt?_eq_none_iff]
  unfold checked
  cases ofInt? w n <;> simp [eq_comm]

def min (w : Width) : Fixed w := ⟨w.lo, Int.le_refl _, by cases w <;> decide⟩

def max (w : Width) : Fixed w := ⟨w.hi, by cases w <;> decide, Int.le_refl _⟩

/-- Whether the remainder of a division lies within the width is no question: it is no greater
than the dividend. -/
theorem tmod_bounds (a b : Fixed w) :
    w.lo ≤ a.val.tmod b.val ∧ a.val.tmod b.val ≤ w.hi := by
  have size := Int.natAbs_tmod a.val b.val
  have le := Nat.mod_le a.val.natAbs b.val.natAbs
  have lower := a.lo_le
  have upper := a.le_hi
  have bounds := w.lo_eq_neg_hi
  rcases Int.le_total 0 a.val with h | h
  · have := Int.tmod_nonneg b.val h
    have := w.lo_neg
    omega
  · have := Int.tmod_nonneg b.val (a := -a.val) (by omega)
    rw [Int.neg_tmod] at this
    have := w.hi_pos
    omega

theorem sqrt_bounds (a : Fixed w) :
    w.lo ≤ (Nat.sqrt a.val.toNat : Int) ∧ (Nat.sqrt a.val.toNat : Int) ≤ w.hi := by
  have square := Nat.sqrt_le a.val.toNat
  have root := Nat.le_mul_self (Nat.sqrt a.val.toNat)
  have upper := a.le_hi
  have := w.lo_neg
  have := w.hi_pos
  omega

def add (a b : Fixed w) : Except Fault (Fixed w) := checked (.overflow .sum) (a.val + b.val)

def sub (a b : Fixed w) : Except Fault (Fixed w) :=
  checked (.overflow .difference) (a.val - b.val)

def mul (a b : Fixed w) : Except Fault (Fixed w) := checked (.overflow .product) (a.val * b.val)

def div (a b : Fixed w) : Except Fault (Fixed w) :=
  if b.val = 0 then .error .divideByZero
  else checked (.overflow .quotient) (a.val.tdiv b.val)

def rem (a b : Fixed w) : Except Fault (Fixed w) :=
  if b.val = 0 then .error .moduloByZero
  else .ok ⟨a.val.tmod b.val, (tmod_bounds a b).1, (tmod_bounds a b).2⟩

def abs (a : Fixed w) : Except Fault (Fixed w) := checked (.absOutOfRange a.val) a.val.natAbs

def neg (a : Fixed w) : Except Fault (Fixed w) := checked (.negOutOfRange a.val) (-a.val)

def sqrt (a : Fixed w) : Except Fault (Fixed w) :=
  if a.val < 0 then .error .negativeRoot
  else .ok ⟨Nat.sqrt a.val.toNat, (sqrt_bounds a).1, (sqrt_bounds a).2⟩

def ofInt (w : Width) (n : Int) : Except Fault (Fixed w) :=
  checked (.outOfRange w (toString n)) n

/-- The bounds within which an integer is read, or taken from a double, before it is held against
those of its width. -/
def readingBound : Int := (1 <<< 127 : Nat)

/-- The double without its fraction, if the double itself lies within the bounds. It is compared
with the doubles next to these. The one next to the greatest integer of 64 bits lies beyond it, so
that the integer that is taken from the double is compared as well. -/
def ofDouble (w : Width) (d : Double) : Except Fault (Fixed w) :=
  let integer := Double.clamped (-readingBound) (readingBound - 1)
  let within := (Double.ofInt w.lo).le d && d.le (Double.ofInt w.hi)
  if !within || w.hi < integer d then .error (.outOfRange w d.text)
  else checked (.outOfRange w d.text) (integer d.wholePart)

/-- Text that is no integer is malformed, an integer beyond the width is out of range. So is a
text whose digits leave the reading bounds, whatever stands behind them. -/
def ofText (w : Width) (s : String) : Except Fault (Fixed w) :=
  match Numeral.read (-readingBound) (readingBound - 1) s with
  | .ok n => checked (.outOfRange w s) n
  | .error .tooLarge | .error .tooSmall => .error (.outOfRange w s)
  | .error _ => .error (.notInteger s)

def cast (w' : Width) (a : Fixed w) : Except Fault (Fixed w') := ofInt w' a.val

def toInt32 (a : Fixed w) : Except Fault (Fixed .int) :=
  if a.val < Width.int.lo then .error .belowInt
  else checked .aboveInt a.val

def toDouble (a : Fixed w) : Double := Double.ofInt a.val

def text (a : Fixed w) : String := toString a.val

instance : ToString (Fixed w) := ⟨text⟩

end Fixed

end Cql
