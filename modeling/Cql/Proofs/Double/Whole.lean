import Cql.Proofs.Double.Nearest
import Mathlib.Data.Rat.Floor

/-!
Whole parts of doubles. An integer of at most 53 binary digits is a double, and a double without a
fraction is an integer; so the double without its fraction is the exact integer next to it on the
side of zero.
-/

namespace Cql

def towardZero (x : ℚ) : Int := if x < 0 then ⌈x⌉ else ⌊x⌋

theorem le_towardZero {n : Int} {x : ℚ} (lower : n ≤ x) : n ≤ towardZero x := by
  unfold towardZero
  split
  · exact_mod_cast lower.trans (Int.le_ceil x)
  · exact Int.le_floor.mpr lower

theorem towardZero_le {n : Int} {x : ℚ} (upper : x ≤ n) : towardZero x ≤ n := by
  unfold towardZero
  split
  · exact Int.ceil_le.mpr upper
  · exact_mod_cast (Int.floor_le x).trans upper

@[simp] theorem towardZero_intCast (n : Int) : towardZero n = n :=
  Int.le_antisymm (towardZero_le (le_refl _)) (le_towardZero (le_refl _))

theorem towardZero_neg (x : ℚ) : towardZero (-x) = -towardZero x := by
  unfold towardZero
  rcases lt_trichotomy x 0 with neg | rfl | pos
  · rw [if_neg (by linarith), if_pos neg, Int.floor_neg]
  · simp
  · rw [if_pos (by linarith), if_neg (by linarith), Int.ceil_neg]

namespace Double

variable {d : Double}

theorem toRat_eq_ratio (d : Double) :
    d.toRat = (if d.negative then -1 else 1) * (d.num / d.den) := by
  rw [toRat, num_div_den]

theorem truncated_eq (d : Double) : d.truncated = towardZero d.toRat := by
  have size : towardZero (d.num / d.den) = (d.num / d.den : Nat) := by
    have nonneg : (0 : ℚ) ≤ d.num / d.den := by positivity
    unfold towardZero
    rw [if_neg (not_lt.mpr nonneg)]
    exact Rat.floor_natCast_div_natCast d.num d.den
  rw [toRat_eq_ratio, truncated]
  cases d.negative
  · simpa using size.symm
  · simpa [towardZero_neg] using size.symm

theorem den_eq_one (integral : 0 ≤ d.exponent) : d.den = 1 := by
  have none : (-d.exponent).toNat = 0 := by omega
  rw [den, none]
  rfl

theorem toRat_eq_truncated (integral : 0 ≤ d.exponent) : d.toRat = d.truncated := by
  rw [toRat_eq_ratio, truncated, den_eq_one integral]
  cases d.negative <;> simp

theorem num_lt_of_fraction (fraction : d.exponent < 0) : d.num < 2 ^ 53 := by
  have none : d.exponent.toNat = 0 := by omega
  rw [num, none]
  exact d.significand_bounds.1

theorem toRat_le_of_truncated_le {n : Int} (great : 2 ^ 53 ≤ n) (upper : d.truncated ≤ n) :
    d.toRat ≤ n := by
  rcases Int.lt_or_le d.exponent 0 with fraction | integral
  · have small : (d.num : ℚ) / d.den ≤ 2 ^ 53 := by
      have den : (1 : ℚ) ≤ d.den := by exact_mod_cast Nat.pos_of_ne_zero d.den_ne_zero
      have num : (d.num : ℚ) ≤ 2 ^ 53 := by exact_mod_cast (num_lt_of_fraction fraction).le
      exact (div_le_self (by positivity) den).trans num
    have nonneg : (0 : ℚ) ≤ d.num / d.den := by positivity
    have great : (2 ^ 53 : ℚ) ≤ n := by exact_mod_cast great
    rw [toRat_eq_ratio]
    split <;> linarith
  · rw [toRat_eq_truncated integral]
    exact_mod_cast upper

theorem ofMagnitude_grid (negative : Bool) {s k : Nat} (least : 2 ^ 52 ≤ s) (small : s < 2 ^ 53)
    (bound : k ≤ 2045) :
    let d := ofMagnitude negative (k * 2 ^ 52 + s)
    d.isFinite ∧ d.significand = s ∧ d.exponent = k - 1074 := by
  intro d
  have magnitude : d.magnitude = k * 2 ^ 52 + s := by
    rw [magnitude_ofMagnitude, Nat.mod_eq_of_lt (by omega)]
  have exponent : d.magnitude / 2 ^ 52 = k + 1 := by omega
  have fraction : d.magnitude % 2 ^ 52 = s - 2 ^ 52 := by omega
  refine ⟨?_, ?_, ?_⟩
  · rw [isFinite, magnitude, infinite_eq]
    exact decide_eq_true (by omega)
  · rw [significand, Nat.shiftRight_eq_div_pow, exponent, if_neg (by omega), Nat.shiftLeft_eq,
      Nat.one_mul, fraction]
    omega
  · rw [Double.exponent, Nat.shiftRight_eq_div_pow, exponent]
    omega

theorem ofRatio_of_ratio {n : Nat} (finite : d.isFinite) (nonzero : d.isZero = false)
    (value : (d.num / d.den : ℚ) = n) : ofRatio d.negative n 1 = d := by
  have den : (d.den : ℚ) ≠ 0 := by exact_mod_cast d.den_ne_zero
  have terms : d.den * n = d.num := by
    have product : (d.num : ℚ) = n * d.den := (div_eq_iff den).mp value
    rw [Nat.mul_comm]
    exact_mod_cast product.symm
  calc ofRatio d.negative n 1
    _ = ofRatio d.negative (d.den * n) (d.den * 1) :=
      (ofRatio_mul _ _ (Nat.pos_of_ne_zero d.den_ne_zero) Nat.one_ne_zero).symm
    _ = ofRatio d.negative d.num d.den := by rw [terms, Nat.mul_one]
    _ = d := ofRatio_num_den finite nonzero

theorem exists_integer (negative : Bool) {m k : Nat} (small : m < 2 ^ 53) (nonzero : m ≠ 0)
    (bound : k ≤ 900) :
    ∃ d : Double, d.isFinite ∧ d.isZero = false ∧ d.negative = negative ∧
      (d.num / d.den : ℚ) = (m * 2 ^ k : Nat) := by
  have digits : m.log2 ≤ 52 := by
    have := (Nat.log2_lt nonzero).mpr small
    omega
  have scaled : m * 2 ^ (52 - m.log2) < 2 ^ 53 ∧ 2 ^ 52 ≤ m * 2 ^ (52 - m.log2) := by
    have whole : 2 ^ m.log2 * 2 ^ (52 - m.log2) = 2 ^ 52 := by
      rw [← Nat.pow_add]
      congr 1
      omega
    have lower := Nat.mul_le_mul_right (2 ^ (52 - m.log2)) (Nat.log2_self_le nonzero)
    have upper := Nat.mul_lt_mul_of_pos_right (Nat.lt_log2_self (n := m))
      (Nat.two_pow_pos (52 - m.log2))
    rw [Nat.pow_succ, Nat.mul_right_comm, whole] at upper
    omega
  obtain ⟨finite, significand, exponent⟩ :=
    ofMagnitude_grid negative scaled.2 scaled.1 (k := m.log2 + 1022 + k) (by omega)
  refine ⟨_, finite, ?_, negative_ofMagnitude negative _, ?_⟩
  · rw [isZero, decide_eq_false_iff_not, magnitude_ofMagnitude]
    omega
  · have power : ((m.log2 + 1022 + k : Nat) : Int) - 1074 = k - (52 - m.log2 : Nat) := by omega
    rw [num_div_den, significand, exponent, power, zpow_sub₀ two_ne_zero, zpow_natCast,
      zpow_natCast]
    push_cast
    field_simp

theorem toRat_ofRatio (negative : Bool) {m k : Nat} (small : m < 2 ^ 53) (bound : k ≤ 900) :
    (ofRatio negative (m * 2 ^ k) 1).isFinite ∧
      (ofRatio negative (m * 2 ^ k) 1).toRat =
        (if negative then -1 else 1) * ((m * 2 ^ k : Nat) : ℚ) := by
  rcases Nat.eq_zero_or_pos m with rfl | pos
  · rw [Nat.zero_mul]
    cases negative <;> exact ⟨rfl, by simp [toRat, ofRatio, significand]⟩
  · obtain ⟨d, finite, nonzero, rfl, value⟩ := exists_integer negative small pos.ne' bound
    rw [ofRatio_of_ratio finite nonzero value]
    exact ⟨finite, by rw [toRat_eq_ratio, value]⟩

theorem toRat_ofInt {n : Int} {m k : Nat} (small : m < 2 ^ 53) (bound : k ≤ 900)
    (digits : n.natAbs = m * 2 ^ k) : (ofInt n).isFinite ∧ (ofInt n).toRat = n := by
  obtain ⟨finite, value⟩ := toRat_ofRatio (n < 0) small bound
  rw [← digits] at finite value
  refine ⟨finite, value.trans ?_⟩
  simp only [decide_eq_true_eq]
  rcases Int.lt_or_le n 0 with neg | nonneg
  · rw [if_pos neg, Nat.cast_natAbs, abs_of_neg neg]
    simp
  · rw [if_neg (by omega), Nat.cast_natAbs, abs_of_nonneg nonneg]
    simp

theorem wholePart_of_integral (finite : d.isFinite) (integral : 0 ≤ d.exponent) :
    d.wholePart = d := by
  have nonzero : d.isZero = false := by
    have magnitude := d.magnitude_eq
    rw [isZero, decide_eq_false_iff_not]
    omega
  have value := ofRatio_num_den finite nonzero
  rw [den_eq_one integral] at value
  rw [wholePart, if_pos finite, den_eq_one integral, Nat.div_one, value]

/-- The double without its fraction is the exact integer that it is truncated to. -/
theorem toRat_wholePart (finite : d.isFinite) :
    d.wholePart.isFinite ∧ d.wholePart.toRat = d.truncated := by
  rcases Int.lt_or_le d.exponent 0 with fraction | integral
  · have small : d.num / d.den < 2 ^ 53 :=
      (Nat.div_le_self _ _).trans_lt (num_lt_of_fraction fraction)
    obtain ⟨finite', value⟩ := toRat_ofRatio d.negative small (Nat.zero_le 900)
    rw [Nat.pow_zero, Nat.mul_one] at finite' value
    rw [wholePart, if_pos finite]
    refine ⟨finite', value.trans ?_⟩
    unfold truncated
    generalize d.num / d.den = size
    cases d.negative <;> simp
  · rw [wholePart_of_integral finite integral]
    exact ⟨finite, toRat_eq_truncated integral⟩

end Double

end Cql
