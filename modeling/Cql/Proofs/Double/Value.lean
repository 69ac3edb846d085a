import Cql.Double
import Mathlib.Algebra.Order.Field.Rat
import Mathlib.Order.WithBot
import Mathlib.Tactic

namespace Cql.Double

theorem magnitude_lt (d : Double) : d.magnitude < 2 ^ 63 := Nat.mod_lt _ (by decide)

theorem infinite_eq : infinite = 2047 * 2 ^ 52 := rfl

theorem toNat_bits (d : Double) :
    d.bits.toNat = (if d.negative then 2 ^ 63 else 0) + d.magnitude := by
  have small := d.bits.toNat_lt
  simp only [magnitude, negative, Nat.shiftLeft_eq, decide_eq_true_eq]
  split <;> omega

theorem ext_of_magnitude {a b : Double} (sign : a.negative = b.negative)
    (same : a.magnitude = b.magnitude) : a = b := by
  have bits : a.bits = b.bits := by
    apply UInt64.toNat_inj.mp
    rw [toNat_bits a, toNat_bits b, sign, same]
  cases a
  cases b
  exact congrArg Double.mk bits

@[simp] theorem negative_ofMagnitude (negative : Bool) (m : Nat) :
    (ofMagnitude negative m).negative = negative := by
  have small : m % 2 ^ 63 < 2 ^ 63 := Nat.mod_lt _ (by decide)
  cases negative <;>
    simp only [Double.negative, ofMagnitude, Nat.shiftLeft_eq, UInt64.toNat_ofNat',
      decide_eq_true_eq, decide_eq_false_iff_not] <;> simp <;> omega

@[simp] theorem magnitude_ofMagnitude (negative : Bool) (m : Nat) :
    (ofMagnitude negative m).magnitude = m % 2 ^ 63 := by
  have small : m % 2 ^ 63 < 2 ^ 63 := Nat.mod_lt _ (by decide)
  cases negative <;>
    simp [magnitude, ofMagnitude, Nat.shiftLeft_eq, UInt64.toNat_ofNat']

theorem ofMagnitude_magnitude (d : Double) : ofMagnitude d.negative d.magnitude = d := by
  apply ext_of_magnitude
  · rw [negative_ofMagnitude]
  · rw [magnitude_ofMagnitude, Nat.mod_eq_of_lt d.magnitude_lt]

def unitsOf (m : Nat) : Nat :=
  if m / 2 ^ 52 = 0 then m else (2 ^ 52 + m % 2 ^ 52) * 2 ^ (m / 2 ^ 52 - 1)

theorem unitsOf_lt {m n : Nat} (less : m < n) : unitsOf m < unitsOf n := by
  have exponents : m / 2 ^ 52 ≤ n / 2 ^ 52 := Nat.div_le_div_right (Nat.le_of_lt less)
  have hm := Nat.div_add_mod m (2 ^ 52)
  have hn := Nat.div_add_mod n (2 ^ 52)
  have fraction := Nat.mod_lt m (Nat.two_pow_pos 52)
  unfold unitsOf
  generalize m / 2 ^ 52 = e, m % 2 ^ 52 = f at *
  generalize n / 2 ^ 52 = e', n % 2 ^ 52 = f' at *
  rcases Nat.lt_or_eq_of_le exponents with lower | rfl
  · -- what lies below an exponent is less than the least number that has it
    have below : (if e = 0 then m else (2 ^ 52 + f) * 2 ^ (e - 1)) < 2 ^ 52 * 2 ^ e := by
      split
      · subst e
        omega
      · have double : 2 ^ e = 2 * 2 ^ (e - 1) := by
          rw [← Nat.pow_succ']
          congr 1
          omega
        rw [double, ← Nat.mul_assoc]
        exact Nat.mul_lt_mul_of_pos_right (by omega) (Nat.two_pow_pos _)
    have above : 2 ^ 52 * 2 ^ e ≤ (2 ^ 52 + f') * 2 ^ (e' - 1) :=
      Nat.mul_le_mul (by omega) (Nat.pow_le_pow_right (by decide) (by omega))
    rw [if_neg (by omega : e' ≠ 0)]
    omega
  · split
    · exact less
    · exact Nat.mul_lt_mul_of_pos_right (by omega) (Nat.two_pow_pos _)

def unit : ℚ := 2 ^ (-1074 : Int)

theorem unit_pos : 0 < unit := zpow_pos (by norm_num) _

theorem two_zpow_sub (k : Nat) : (2 : ℚ) ^ ((k : Int) - 1074) = 2 ^ k * unit := by
  rw [Int.sub_eq_add_neg, zpow_add₀ two_ne_zero, zpow_natCast]
  rfl

def toRat (d : Double) : ℚ := (if d.negative then -1 else 1) * (d.significand * 2 ^ d.exponent)

theorem significand_mul_exponent (d : Double) :
    (d.significand * 2 ^ d.exponent : ℚ) = unitsOf d.magnitude * unit := by
  unfold unitsOf significand exponent
  simp only [Nat.shiftRight_eq_div_pow, Nat.shiftLeft_eq, Nat.one_mul]
  by_cases subnormal : d.magnitude / 2 ^ 52 = 0
  · rw [if_pos subnormal, if_pos subnormal, subnormal]
    rfl
  · obtain ⟨k, hk⟩ := Nat.exists_eq_succ_of_ne_zero subnormal
    rw [if_neg subnormal, if_neg subnormal, hk, Nat.max_eq_left (by omega), Nat.succ_sub_one]
    have exponent : ((k.succ : Nat) : Int) - 1075 = k - 1074 := by omega
    rw [exponent, two_zpow_sub]
    push_cast
    ring

def signedUnits (n : Int) : Int := if n < 0 then -unitsOf n.natAbs else unitsOf n.natAbs

theorem signedUnits_strictMono : StrictMono signedUnits := by
  intro m n less
  have nonneg : 0 ≤ n → m < 0 → 0 < unitsOf m.natAbs := fun _ _ =>
    Nat.zero_lt_of_lt (unitsOf_lt (m := 0) (by omega))
  have smaller : n < 0 → unitsOf n.natAbs < unitsOf m.natAbs := fun _ => unitsOf_lt (by omega)
  have greater : 0 ≤ m → unitsOf m.natAbs < unitsOf n.natAbs := fun _ => unitsOf_lt (by omega)
  unfold signedUnits
  split <;> split <;> omega

theorem toRat_eq (d : Double) : d.toRat = signedUnits d.orderKey * unit := by
  unfold toRat signedUnits orderKey
  rw [significand_mul_exponent]
  cases d.negative
  · simp
  · rcases Nat.eq_zero_or_pos d.magnitude with zero | pos
    · simp [zero, unitsOf]
    · simp [pos]

theorem toRat_lt_iff (a b : Double) : a.toRat < b.toRat ↔ a.orderKey < b.orderKey := by
  rw [toRat_eq, toRat_eq, mul_lt_mul_iff_left₀ unit_pos, Int.cast_lt,
    signedUnits_strictMono.lt_iff_lt]

theorem isNaN_of_isFinite {d : Double} (finite : d.isFinite) : d.isNaN = false := by
  simp only [isFinite, decide_eq_true_eq] at finite
  rw [isNaN, decide_eq_false_iff_not]
  omega

theorem le_iff_toRat {a b : Double} (ha : a.isFinite) (hb : b.isFinite) :
    a.le b ↔ a.toRat ≤ b.toRat := by
  rw [← not_lt, toRat_lt_iff]
  simp [le, isNaN_of_isFinite ha, isNaN_of_isFinite hb]

theorem isFinite_of_between {a b d : Double} (ha : a.isFinite) (hb : b.isFinite)
    (lower : a.le d) (upper : d.le b) : d.isFinite := by
  simp only [le, Bool.and_eq_true, decide_eq_true_eq] at lower upper
  have lower := lower.2
  have upper := upper.2
  simp only [isFinite, decide_eq_true_eq] at ha hb ⊢
  unfold orderKey at lower upper
  split at lower <;> split at upper <;> split at lower <;> omega

/-- The value of a double that is a number; every finite one lies between the two infinities. -/
def value (d : Double) : WithBot (WithTop ℚ) :=
  if d.isInfinite then (if d.negative then ⊥ else (⊤ : WithTop ℚ)) else (d.toRat : WithTop ℚ)

theorem value_lt_iff {a b : Double} (ha : a.isNaN = false) (hb : b.isNaN = false) :
    a.value < b.value ↔ a.orderKey < b.orderKey := by
  simp only [isNaN, decide_eq_false_iff_not, Nat.not_lt] at ha hb
  have bound := infinite_eq
  have finite (q : ℚ) : ((q : WithTop ℚ) : WithBot (WithTop ℚ)) < ⊤ :=
    WithBot.coe_lt_coe.mpr (WithTop.coe_lt_top q)
  unfold value isInfinite
  by_cases ia : a.magnitude = infinite <;> by_cases ib : b.magnitude = infinite
  · unfold orderKey
    cases a.negative <;> cases b.negative <;> simp [ia, ib, infinite_eq]
  · unfold orderKey
    cases a.negative <;> cases b.negative <;> simp [ia, ib] <;> omega
  · unfold orderKey
    cases a.negative <;> cases b.negative <;> simp [ia, ib, finite] <;> omega
  · simpa [ia, ib] using toRat_lt_iff a b

end Cql.Double
