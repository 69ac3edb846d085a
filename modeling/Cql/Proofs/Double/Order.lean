import Cql.Proofs.Double.Value
import Cql.Proofs.Ordering

namespace Cql.Double

def place (d : Double) : Int := if d.isNaN then infinite + 1 else d.orderKey

theorem place_of_isNaN {d : Double} (h : d.isNaN) : d.place = infinite + 1 := if_pos h

theorem place_of_number {d : Double} (h : d.isNaN = false) : d.place = d.orderKey :=
  if_neg (by simp [h])

theorem orderKey_le {d : Double} (h : d.isNaN = false) : d.orderKey ≤ infinite := by
  simp only [isNaN, decide_eq_false_iff_not] at h
  unfold orderKey
  split <;> omega

theorem canonicalBits_of_isNaN {d : Double} (h : d.isNaN) :
    d.canonicalBits = (infinite + 2 ^ 51 : Nat) := if_pos h

theorem canonicalBits_of_number {d : Double} (h : d.isNaN = false) :
    d.canonicalBits = if d.negative then (d.magnitude : Int) - (2 ^ 63 : Nat) else d.magnitude := by
  have bits := d.toNat_bits
  unfold canonicalBits
  rw [if_neg (by simp [h] : ¬ d.isNaN = true), bits, Nat.shiftLeft_eq]
  cases d.negative
  · simp
  · simp only [if_true]
    omega

theorem lt_nan {a b : Double} (ha : a.isNaN = false) (hb : b.isNaN) :
    a.place < b.place ∧ a.canonicalBits < b.canonicalBits := by
  have below := orderKey_le ha
  have bound := a.magnitude_lt
  rw [place_of_number ha, place_of_isNaN hb, canonicalBits_of_number ha, canonicalBits_of_isNaN hb]
  constructor
  · omega
  · unfold orderKey at below
    cases sign : a.negative <;> simp [sign] at below ⊢ <;> omega

theorem cmp_eq_then (a b : Double) :
    a.cmp b = (compare a.place b.place).then (compare a.canonicalBits b.canonicalBits) := by
  unfold cmp lt
  cases ha : a.isNaN <;> cases hb : b.isNaN
  · rw [place_of_number ha, place_of_number hb]
    rcases Int.lt_trichotomy a.orderKey b.orderKey with less | same | greater
    · simp [less, Std.compare_eq_lt.mpr less]
    · simp [same]
    · simp [greater, Std.compare_eq_gt.mpr greater, Int.not_lt.mpr (Int.le_of_lt greater)]
  · obtain ⟨place, bits⟩ := lt_nan ha hb
    simp [Std.compare_eq_lt.mpr place, Std.compare_eq_lt.mpr bits]
  · obtain ⟨place, bits⟩ := lt_nan hb ha
    simp [Std.compare_eq_gt.mpr place, Std.compare_eq_gt.mpr bits]
  · simp [place_of_isNaN ha, place_of_isNaN hb]

theorem cmp_swap (a b : Double) : a.cmp b = (b.cmp a).swap := by
  rw [cmp_eq_then, cmp_eq_then, Ordering.swap_then, ← Std.OrientedOrd.eq_swap,
    ← Std.OrientedOrd.eq_swap]

theorem cmp_chained (a b c : Double) : Chained (a.cmp b) (b.cmp c) (a.cmp c) := by
  rw [cmp_eq_then, cmp_eq_then, cmp_eq_then]
  exact (Chained.of_compare a.place b.place c.place).then
    (Chained.of_compare a.canonicalBits b.canonicalBits c.canonicalBits)

def negativeZero : Double := ofMagnitude true 0

/-- Patterns of one number that are told apart are those of the two zeros. -/
theorem zeros_of_orderKey_eq {a b : Double} (ha : a.isNaN = false) (hb : b.isNaN = false)
    (same : a.orderKey = b.orderKey) (less : a.canonicalBits < b.canonicalBits) :
    a = negativeZero ∧ b = zero := by
  rw [canonicalBits_of_number ha, canonicalBits_of_number hb] at less
  unfold orderKey at same
  cases signA : a.negative <;> cases signB : b.negative <;> simp [signA, signB] at same less
  · omega
  · omega
  · constructor
    · exact ext_of_magnitude (signA.trans rfl) (by change _ = 0; omega)
    · exact ext_of_magnitude (signB.trans rfl) (by change _ = 0; omega)
  · omega

/-- Numbers are ordered by their values, and the two zeros by their signs. -/
theorem cmp_eq_lt_iff_value {a b : Double} (ha : a.isNaN = false) (hb : b.isNaN = false) :
    a.cmp b = .lt ↔ a.value < b.value ∨ (a = negativeZero ∧ b = zero) := by
  rw [cmp_eq_then, Ordering.then_eq_lt, Std.compare_eq_lt, Std.compare_eq_lt,
    Std.compare_eq_iff_eq, place_of_number ha, place_of_number hb, value_lt_iff ha hb]
  refine or_congr_right ⟨fun h => zeros_of_orderKey_eq ha hb h.1 h.2, ?_⟩
  rintro ⟨rfl, rfl⟩
  decide

theorem cmp_eq_of_isNaN {a b : Double} (ha : a.isNaN) (hb : b.isNaN) : a.cmp b = .eq := by
  rw [cmp_eq_then, place_of_isNaN ha, place_of_isNaN hb, canonicalBits_of_isNaN ha,
    canonicalBits_of_isNaN hb, Std.ReflOrd.compare_self, Std.ReflOrd.compare_self]
  rfl

theorem cmp_eq_lt_of_isNaN {a b : Double} (ha : a.isNaN = false) (hb : b.isNaN) :
    a.cmp b = .lt := by
  rw [cmp_eq_then, Std.compare_eq_lt.mpr (lt_nan ha hb).1]
  rfl

end Cql.Double
