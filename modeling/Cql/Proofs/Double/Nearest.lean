import Cql.Double.Rounding
import Cql.Proofs.Double.Value
import Mathlib.Data.Int.Log

namespace Cql

theorem roundHalfEven_mul (n d : Nat) {k : Nat} (pos : 0 < k) :
    roundHalfEven (k * n) (k * d) = roundHalfEven n d := by
  unfold roundHalfEven
  rw [Nat.mul_div_mul_left _ _ pos, Nat.mul_mod_mul_left, Nat.mul_left_comm 2 k]
  simp only [Nat.mul_lt_mul_left pos]

theorem roundHalfEven_mul_right (m : Nat) {d : Nat} (pos : 0 < d) :
    roundHalfEven (m * d) d = m := by
  unfold roundHalfEven
  simp [Nat.mul_mod_left, Nat.mul_div_cancel m pos, pos]

namespace Double

theorem two_zpow (q : Int) : (2 : ℚ) ^ q = 2 ^ q.toNat / 2 ^ (-q).toNat := by
  rcases Int.le_total 0 q with nonneg | nonpos
  · obtain ⟨k, rfl⟩ := Int.eq_ofNat_of_zero_le nonneg
    simp
  · obtain ⟨k, hk⟩ := Int.eq_ofNat_of_zero_le (Int.neg_nonneg_of_nonpos nonpos)
    obtain rfl : q = -k := by omega
    simp

theorem log_eq {r : ℚ} {q : Int} (lower : (2 : ℚ) ^ q ≤ r) (upper : r < 2 ^ (q + 1)) :
    Int.log 2 r = q := by
  have pos : 0 < r := lt_of_lt_of_le (zpow_pos two_pos q) lower
  have least : q ≤ Int.log 2 r := (Int.zpow_le_iff_le_log one_lt_two pos).mp lower
  have greatest : Int.log 2 r < q + 1 := (Int.lt_zpow_iff_log_lt one_lt_two pos).mp upper
  omega

theorem ratio_bounds {n d : Nat} (hn : n ≠ 0) (hd : d ≠ 0) :
    (2 : ℚ) ^ ((n.log2 : Int) - d.log2 - 1) ≤ n / d ∧
      (n / d : ℚ) < 2 ^ ((n.log2 : Int) - d.log2 + 1) := by
  have hd' : (0 : ℚ) < d := by positivity
  have lowN : (2 : ℚ) ^ n.log2 ≤ n := by exact_mod_cast Nat.log2_self_le hn
  have lowD : (2 : ℚ) ^ d.log2 ≤ d := by exact_mod_cast Nat.log2_self_le hd
  have highN : (n : ℚ) < 2 ^ (n.log2 + 1) := by exact_mod_cast Nat.lt_log2_self
  have highD : (d : ℚ) < 2 ^ (d.log2 + 1) := by exact_mod_cast Nat.lt_log2_self
  constructor
  · have power : (2 : ℚ) ^ ((n.log2 : Int) - d.log2 - 1) = 2 ^ n.log2 / 2 ^ (d.log2 + 1) := by
      rw [← zpow_natCast, ← zpow_natCast, ← zpow_sub₀ two_ne_zero]
      congr 1
      push_cast
      ring
    rw [power]
    exact div_le_div₀ (by positivity) lowN hd' highD.le
  · have power : (2 : ℚ) ^ ((n.log2 : Int) - d.log2 + 1) = 2 ^ (n.log2 + 1) / 2 ^ d.log2 := by
      rw [← zpow_natCast, ← zpow_natCast, ← zpow_sub₀ two_ne_zero]
      congr 1
      push_cast
      ring
    rw [power]
    exact div_lt_div₀ highN lowD (by positivity) (by positivity)

theorem gridExponent_eq {n d : Nat} (hn : n ≠ 0) (hd : d ≠ 0) :
    gridExponent n d = max (Int.log 2 (n / d : ℚ) - 52) (-1074) := by
  obtain ⟨lower, upper⟩ := ratio_bounds hn hd
  have hd' : (0 : ℚ) < d := by positivity
  unfold gridExponent
  simp only [Nat.shiftLeft_eq]
  generalize hlow : (n.log2 : Int) - d.log2 - 53 = low
  have fits : n * 2 ^ (-low).toNat < d * 2 ^ low.toNat * 2 ^ 53 ↔
      (n / d : ℚ) < 2 ^ (low + 53) := by
    rw [zpow_add₀ two_ne_zero, two_zpow low, div_lt_iff₀ hd', div_mul_eq_mul_div,
      div_mul_eq_mul_div, lt_div_iff₀ (by positivity), ← Nat.cast_lt (α := ℚ)]
    push_cast
    norm_num [mul_comm, mul_left_comm, mul_assoc]
  congr 1
  split
  · rename_i h
    have log : Int.log 2 (n / d : ℚ) = low + 52 := by
      apply log_eq
      · convert lower using 2
        omega
      · convert fits.mp h using 2
        omega
    omega
  · rename_i h
    have log : Int.log 2 (n / d : ℚ) = low + 53 := by
      apply log_eq
      · exact le_of_not_gt (mt fits.mpr h)
      · convert upper using 2
        omega
    omega

variable {n d k : Nat}

theorem gridExponent_mul (pos : 0 < k) (hn : n ≠ 0) (hd : d ≠ 0) :
    gridExponent (k * n) (k * d) = gridExponent n d := by
  have hk : (k : ℚ) ≠ 0 := by positivity
  rw [gridExponent_eq (by positivity) (by positivity), gridExponent_eq hn hd]
  push_cast
  rw [mul_div_mul_left _ _ hk]

theorem nearestMagnitude_mul (pos : 0 < k) (hn : n ≠ 0) (hd : d ≠ 0) :
    nearestMagnitude (k * n) (k * d) = nearestMagnitude n d := by
  unfold nearestMagnitude
  simp only [gridExponent_mul pos hn hd, Nat.shiftLeft_eq, Nat.mul_assoc, roundHalfEven_mul _ _ pos]

/-- Only the ratio counts, not the terms it is written in. -/
theorem ofRatio_mul (negative : Bool) (n : Nat) (pos : 0 < k) (hd : d ≠ 0) :
    ofRatio negative (k * n) (k * d) = ofRatio negative n d := by
  unfold ofRatio
  by_cases hn : n = 0
  · simp [hn]
  · rw [if_neg hn, if_neg (by positivity), nearestMagnitude_mul pos hn hd]

theorem den_ne_zero (d : Double) : d.den ≠ 0 := by simp [den, Nat.shiftLeft_eq]

theorem num_div_den (d : Double) : (d.num / d.den : ℚ) = d.significand * 2 ^ d.exponent := by
  unfold num den
  rw [two_zpow, Nat.shiftLeft_eq, Nat.shiftLeft_eq]
  push_cast
  ring

theorem exponent_ge (d : Double) : -1074 ≤ d.exponent := by
  unfold exponent
  omega

theorem significand_bounds (d : Double) :
    d.significand < 2 ^ 53 ∧ (d.exponent = -1074 ∨ 2 ^ 52 ≤ d.significand) := by
  have fraction := Nat.mod_lt d.magnitude (Nat.two_pow_pos 52)
  unfold significand exponent
  simp only [Nat.shiftRight_eq_div_pow, Nat.shiftLeft_eq, Nat.one_mul]
  split <;> omega

theorem magnitude_eq (d : Double) :
    d.magnitude = (d.exponent + 1074).toNat * 2 ^ 52 + d.significand := by
  unfold significand exponent
  simp only [Nat.shiftRight_eq_div_pow, Nat.shiftLeft_eq, Nat.one_mul]
  split <;> omega

theorem significand_ne_zero {d : Double} (nonzero : d.isZero = false) : d.significand ≠ 0 := by
  simp only [isZero, decide_eq_false_iff_not] at nonzero
  have bounds := d.significand_bounds
  have magnitude := d.magnitude_eq
  omega

theorem gridExponent_num_den {d : Double} (nonzero : d.isZero = false) :
    gridExponent d.num d.den = d.exponent := by
  have hs := significand_ne_zero nonzero
  have hn : d.num ≠ 0 := by simpa [num, Nat.shiftLeft_eq] using hs
  have pos : (0 : ℚ) < d.significand := by positivity
  have least := d.exponent_ge
  obtain ⟨small, normal⟩ := d.significand_bounds
  have upper : (d.num / d.den : ℚ) < 2 ^ (d.exponent + 53) := by
    rw [num_div_den, add_comm, zpow_add₀ two_ne_zero]
    gcongr
    exact_mod_cast small
  rw [gridExponent_eq hn d.den_ne_zero]
  rcases normal with subnormal | large
  · have ratio : (0 : ℚ) < d.num / d.den := by
      rw [num_div_den]
      positivity
    have log := (Int.lt_zpow_iff_log_lt one_lt_two ratio).mp upper
    omega
  · have lower : (2 : ℚ) ^ (d.exponent + 52) ≤ d.num / d.den := by
      rw [num_div_den, add_comm, zpow_add₀ two_ne_zero]
      gcongr
      exact_mod_cast large
    have log := log_eq lower (by convert upper using 2; ring)
    omega

/-- A finite double is the nearest one to its own value. -/
theorem ofRatio_num_den {d : Double} (finite : d.isFinite) (nonzero : d.isZero = false) :
    ofRatio d.negative d.num d.den = d := by
  have hn : d.num ≠ 0 := by simpa [num, Nat.shiftLeft_eq] using significand_ne_zero nonzero
  have magnitude : nearestMagnitude d.num d.den = d.magnitude := by
    have terms : d.num <<< (-d.exponent).toNat = d.significand * (d.den <<< d.exponent.toNat) := by
      simp only [num, den, Nat.shiftLeft_eq]
      ring
    have pos : 0 < d.den <<< d.exponent.toNat := by
      rw [Nat.shiftLeft_eq]
      exact Nat.mul_pos (Nat.pos_of_ne_zero d.den_ne_zero) (Nat.two_pow_pos _)
    simp only [isFinite, decide_eq_true_eq] at finite
    unfold nearestMagnitude
    simp only [gridExponent_num_den nonzero]
    rw [terms, roundHalfEven_mul_right _ pos, Nat.shiftLeft_eq, ← magnitude_eq]
    exact Nat.min_eq_left finite.le
  unfold ofRatio
  rw [if_neg hn, magnitude]
  exact ofMagnitude_magnitude d

end Double

end Cql
