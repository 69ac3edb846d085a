import Cql.Proofs.Double.Whole
import Cql.Proofs.Numeral

/-!
Integers of a width from doubles. A double is compared with the doubles next to the bounds of the
width, and the integer taken from it with the upper bound itself; together this compares the exact
number with the exact bounds.
-/

namespace Cql

theorem Double.clamped_of_isFinite {d : Double} (finite : d.isFinite) (lo hi : Int) :
    d.clamped lo hi = max lo (min d.truncated hi) := by
  have bounded : d.isInfinite = false := by
    simp only [isFinite, decide_eq_true_eq] at finite
    rw [isInfinite, decide_eq_false_iff_not]
    omega
  simp [clamped, isNaN_of_isFinite finite, bounded]

namespace Fixed

variable {w : Width} {d : Double}

theorem toRat_lo (w : Width) :
    (Double.ofInt w.lo).isFinite ∧ (Double.ofInt w.lo).toRat = w.lo :=
  Double.toRat_ofInt (m := 1) (k := w.bits - 1) (by decide) (by cases w <;> decide)
    (by cases w <;> decide)

/-- So is the upper one but for that of 64 bits, which is where doubles have no fractions. -/
theorem toRat_hi (w : Width) :
    (Double.ofInt w.hi).isFinite ∧ (w.hi : ℚ) ≤ (Double.ofInt w.hi).toRat ∧
      ((Double.ofInt w.hi).toRat = w.hi ∨ 2 ^ 53 ≤ w.hi) := by
  have exact (small : w.hi.natAbs < 2 ^ 53) := Double.toRat_ofInt (n := w.hi) (k := 0) small
    (by decide) (by simp)
  cases w with
  | bigint =>
    have same : Double.ofInt Width.bigint.hi = Double.ofInt (2 ^ 63) := by decide
    obtain ⟨finite, value⟩ := Double.toRat_ofInt (n := 2 ^ 63) (m := 1) (k := 63) (by decide)
      (by decide) (by decide)
    rw [same, value]
    refine ⟨finite, ?_, .inr (by decide)⟩
    exact_mod_cast (by decide : Width.bigint.hi ≤ 2 ^ 63)
  | _ =>
    obtain ⟨finite, value⟩ := exact (by decide)
    exact ⟨finite, value.ge, .inl value⟩

/-- The two comparisons with the upper bound, that of doubles and that of integers, are together
the comparison with the exact bound. -/
theorem le_hi_iff (finite : d.isFinite) :
    d.le (Double.ofInt w.hi) ∧ d.clamped (-readingBound) (readingBound - 1) ≤ w.hi ↔
      d.toRat ≤ w.hi := by
  obtain ⟨finiteHi, above, exact⟩ := toRat_hi w
  have bounds := reading_bounds w
  have nonempty := w.lo_neg.trans w.hi_pos
  have taken : d.clamped (-readingBound) (readingBound - 1) ≤ w.hi ↔ d.truncated ≤ w.hi := by
    rw [Double.clamped_of_isFinite finite]
    omega
  rw [Double.le_iff_toRat finite finiteHi, taken]
  constructor
  · rintro ⟨upper, whole⟩
    rcases exact with same | great
    · exact upper.trans same.le
    · exact Double.toRat_le_of_truncated_le great whole
  · intro upper
    exact ⟨upper.trans above, Double.truncated_eq d ▸ towardZero_le upper⟩

theorem within_iff :
    ((Double.ofInt w.lo).le d && d.le (Double.ofInt w.hi)) = true ∧
        ¬ w.hi < d.clamped (-readingBound) (readingBound - 1) ↔
      d.isFinite ∧ (w.lo : ℚ) ≤ d.toRat ∧ d.toRat ≤ w.hi := by
  obtain ⟨finiteLo, exact⟩ := toRat_lo w
  rw [Bool.and_eq_true, Int.not_lt]
  constructor
  · rintro ⟨⟨lower, upper⟩, whole⟩
    have finite := Double.isFinite_of_between finiteLo (toRat_hi w).1 lower upper
    rw [Double.le_iff_toRat finiteLo finite, exact] at lower
    exact ⟨finite, lower, (le_hi_iff finite).mp ⟨upper, whole⟩⟩
  · rintro ⟨finite, lower, upper⟩
    obtain ⟨upper, whole⟩ := (le_hi_iff finite).mpr upper
    rw [← exact, ← Double.le_iff_toRat finiteLo finite] at lower
    exact ⟨⟨lower, upper⟩, whole⟩

theorem clamped_wholePart (finite : d.isFinite) (lower : (w.lo : ℚ) ≤ d.toRat)
    (upper : d.toRat ≤ w.hi) :
    d.wholePart.clamped (-readingBound) (readingBound - 1) = towardZero d.toRat := by
  obtain ⟨finite', whole⟩ := Double.toRat_wholePart finite
  have bounds := reading_bounds w
  have lower := le_towardZero lower
  have upper := towardZero_le upper
  rw [Double.clamped_of_isFinite finite', Double.truncated_eq, whole, towardZero_intCast,
    Double.truncated_eq]
  omega

/-- Doubles are compared with the bounds as exact numbers: a finite one within them is read as the
integer next to it on the side of zero, and every other pattern is refused as out of range, whether
it is no number, infinite or beyond a bound by however little. -/
theorem ofDouble_exact (w : Width) (d : Double) :
    (d.isFinite ∧ (w.lo : ℚ) ≤ d.toRat ∧ d.toRat ≤ w.hi →
      ∃ a : Fixed w, ofDouble w d = .ok a ∧ a.val = towardZero d.toRat) ∧
      (¬ (d.isFinite ∧ (w.lo : ℚ) ≤ d.toRat ∧ d.toRat ≤ w.hi) →
        ofDouble w d = .error (.outOfRange w d.text) ∧
          (Fault.outOfRange w d.text).category = .range) := by
  constructor
  · intro within
    obtain ⟨compared, whole⟩ := within_iff.mpr within
    obtain ⟨finite, lower, upper⟩ := within
    refine ⟨⟨_, le_towardZero lower, towardZero_le upper⟩, ?_, rfl⟩
    unfold ofDouble
    rw [if_neg (by simp [compared, whole]), clamped_wholePart finite lower upper]
    exact checked_eq_ok_iff.mpr rfl
  · intro beyond
    refine ⟨if_pos ?_, rfl⟩
    by_contra within
    exact beyond (within_iff.mp (by simpa using within))

/-- A fraction above a bound, the double next to the greatest integer of 64 bits and the one below
it, and the least number below zero. -/
theorem ofDouble_exact_bounds :
    let fraction : Double := ⟨0x405fe00000000000⟩
    let next : Double := ⟨0x43e0000000000000⟩
    let before : Double := ⟨0x43dfffffffffffff⟩
    let least : Double := ⟨0x8000000000000001⟩
    (fraction.toRat = 255 / 2 ∧
        ofDouble .tinyint fraction = .error (.outOfRange .tinyint fraction.text)) ∧
      (next.toRat = 2 ^ 63 ∧ ofDouble .bigint next = .error (.outOfRange .bigint next.text)) ∧
      (before.toRat = 2 ^ 63 - 1024 ∧
        ∃ a, ofDouble .bigint before = .ok a ∧ a.val = 2 ^ 63 - 1024) ∧
      (least.toRat = -Double.unit ∧ ∃ a, ofDouble .tinyint least = .ok a ∧ a.val = 0) := by
  intro fraction next before least
  have whole : towardZero before.toRat = 2 ^ 63 - 1024 := by decide +kernel
  have zero : towardZero least.toRat = 0 := by decide +kernel
  refine ⟨⟨by decide +kernel, ?_⟩, ⟨by decide +kernel, ?_⟩, ⟨by decide +kernel, ?_⟩,
    ⟨by decide +kernel, ?_⟩⟩
  · exact ((ofDouble_exact .tinyint fraction).2 (by decide +kernel)).1
  · exact ((ofDouble_exact .bigint next).2 (by decide +kernel)).1
  · rw [← whole]
    exact (ofDouble_exact .bigint before).1 (by decide +kernel)
  · rw [← zero]
    exact (ofDouble_exact .tinyint least).1 (by decide +kernel)

end Fixed

end Cql
