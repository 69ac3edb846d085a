import Cql.Fixed
import Mathlib.Algebra.Order.Group.Int
import Mathlib.Algebra.Order.Ring.Int
import Mathlib.Algebra.Order.Ring.Abs
import Mathlib.Data.Int.Order.Basic
import Mathlib.Data.Nat.Sqrt
import Mathlib.Tactic.Ring
import Mathlib.Tactic.Linarith

/-!
Runs of steps on one integer of a fixed width. A step that is refused leaves the integer as it was,
and whatever a run gives is what exact arithmetic on unbounded integers says, held against the
bounds of the width at each step.
-/

namespace Cql

def Width.Holds (w : Width) (n : Int) : Prop := w.lo ≤ n ∧ n ≤ w.hi

instance (w : Width) (n : Int) : Decidable (w.Holds n) := inferInstanceAs (Decidable (_ ∧ _))

/-- A division that rounds toward zero: what remains is less than the divisor and has the sign of
the dividend. -/
structure Division (a b q r : Int) : Prop where
  split : a = q * b + r
  small : |r| < |b|
  nonneg : 0 ≤ a → 0 ≤ r
  nonpos : a ≤ 0 → r ≤ 0

namespace Division

variable {a b q r q' r' : Int}

theorem divisor_ne_zero (h : Division a b q r) : b ≠ 0 := by
  rintro rfl
  have := h.small
  have := abs_nonneg r
  simp only [abs_zero] at *
  omega

theorem tdiv_tmod (a : Int) (nonzero : b ≠ 0) : Division a b (a.tdiv b) (a.tmod b) where
  split := by
    rw [mul_comm]
    exact (Int.mul_tdiv_add_tmod a b).symm
  small := by
    have size : (a.tmod b).natAbs = a.natAbs % b.natAbs := Int.natAbs_tmod a b
    have less := Nat.mod_lt a.natAbs (Int.natAbs_pos.mpr nonzero)
    rw [Int.abs_eq_natAbs, Int.abs_eq_natAbs]
    omega
  nonneg := Int.tmod_nonneg b
  nonpos := by
    intro negative
    have flipped := Int.tmod_nonneg b (Int.neg_nonneg_of_nonpos negative)
    rw [Int.neg_tmod] at flipped
    omega

/-- Two remainders of one division have the same sign, so they are less than a divisor apart. -/
theorem unique (h : Division a b q r) (h' : Division a b q' r') : q = q' ∧ r = r' := by
  have close : |r' - r| < |b| := by
    have small := abs_lt.mp h.small
    have small' := abs_lt.mp h'.small
    rw [abs_lt]
    rcases le_total 0 a with sign | sign
    · have := h.nonneg sign
      have := h'.nonneg sign
      omega
    · have := h.nonpos sign
      have := h'.nonpos sign
      omega
  have apart : r' - r = b * (q - q') := by linarith [h.split, h'.split]
  have same : r' - r = 0 :=
    Int.eq_zero_of_abs_lt_dvd ((abs_dvd b _).mpr ⟨q - q', apart⟩) close
  have factor : q - q' = 0 :=
    (mul_eq_zero.mp (apart.symm.trans same)).resolve_left h.divisor_ne_zero
  omega

end Division

structure FloorRoot (a r : Int) : Prop where
  nonneg : 0 ≤ r
  le : r * r ≤ a
  lt : a < (r + 1) * (r + 1)

namespace FloorRoot

variable {a r r' : Int}

theorem radicand_nonneg (h : FloorRoot a r) : 0 ≤ a := (mul_self_nonneg r).trans h.le

theorem sqrt (nonneg : 0 ≤ a) : FloorRoot a (Nat.sqrt a.toNat) where
  nonneg := Int.natCast_nonneg _
  le := by
    have := Nat.sqrt_le a.toNat
    zify at this
    rwa [Int.toNat_of_nonneg nonneg] at this
  lt := by
    have := Nat.lt_succ_sqrt a.toNat
    zify at this
    rwa [Int.toNat_of_nonneg nonneg] at this

theorem le_of (h : FloorRoot a r) (h' : FloorRoot a r') : r ≤ r' := by
  by_contra more
  have step : r' + 1 ≤ r := by omega
  have below := mul_self_le_mul_self (by linarith [h'.nonneg]) step
  linarith [h.le, h'.lt]

theorem unique (h : FloorRoot a r) (h' : FloorRoot a r') : r = r' :=
  le_antisymm (h.le_of h') (h'.le_of h)

end FloorRoot

namespace Fixed

inductive Step (w : Width)
  | add (b : Fixed w)
  | sub (b : Fixed w)
  | mul (b : Fixed w)
  | div (b : Fixed w)
  | rem (b : Fixed w)
  | abs
  | neg
  | sqrt
  | ofLong (n : Long)
  deriving DecidableEq, Repr

variable {w : Width}

namespace Step

def apply (a : Fixed w) : Step w → Except Fault (Fixed w)
  | add b => a.add b
  | sub b => a.sub b
  | mul b => a.mul b
  | div b => a.div b
  | rem b => a.rem b
  | abs => a.abs
  | neg => a.neg
  | sqrt => a.sqrt
  | ofLong n => ofInt w n.val

/-- The integer after the step: a step that fails leaves it as it is. -/
def next (a : Fixed w) (step : Step w) : Fixed w := (step.apply a).toOption.getD a

/-- What the step gives in arithmetic on all integers. -/
inductive Exact : Step w → Int → Int → Prop
  | add {a : Int} {b : Fixed w} : Exact (add b) a (a + b.val)
  | sub {a : Int} {b : Fixed w} : Exact (sub b) a (a - b.val)
  | mul {a : Int} {b : Fixed w} : Exact (mul b) a (a * b.val)
  | div {a q r : Int} {b : Fixed w} (division : Division a b.val q r) : Exact (div b) a q
  | rem {a q r : Int} {b : Fixed w} (division : Division a b.val q r) : Exact (rem b) a r
  | abs {a : Int} : Exact abs a |a|
  | neg {a : Int} : Exact neg a (-a)
  | sqrt {a r : Int} (root : FloorRoot a r) : Exact sqrt a r
  | ofLong {a : Int} {n : Long} : Exact (ofLong n) a n.val

inductive ByZero : Step w → Prop
  | div {b : Fixed w} (zero : b.val = 0) : ByZero (div b)
  | rem {b : Fixed w} (zero : b.val = 0) : ByZero (rem b)

/-- What a step on the integer `a` may show, and which integer is there after it: the exact result,
if there is one and the width holds it, or else the integer as it was. -/
inductive Takes (step : Step w) (a : Int) : Except Category Int → Int → Prop
  | result {n : Int} (exact : step.Exact a n) (holds : w.Holds n) : Takes step a (.ok n) n
  | byZero (zero : step.ByZero) : Takes step a (.error .divideByZero) a
  | beyond (nonzero : ¬ step.ByZero) (none : ∀ n, step.Exact a n → ¬ w.Holds n) :
      Takes step a (.error .range) a

end Step

def report (outcome : Except Fault (Fixed w)) : Except Category Int :=
  match outcome with
  | .ok a => .ok a.val
  | .error fault => .error fault.category

def run (a : Fixed w) : List (Step w) → List (Except Fault (Fixed w)) × Fixed w
  | [] => ([], a)
  | step :: steps =>
    let (outcomes, last) := run (step.next a) steps
    (step.apply a :: outcomes, last)

/-- A run in exact arithmetic, within the bounds of the width at each step. -/
inductive Runs : Int → List (Step w) → List (Except Category Int) → Int → Prop
  | nil {a : Int} : Runs a [] [] a
  | cons {a b last : Int} {step : Step w} {steps : List (Step w)} {outcome : Except Category Int}
      {outcomes : List (Except Category Int)} (first : step.Takes a outcome b)
      (rest : Runs b steps outcomes last) : Runs a (step :: steps) (outcome :: outcomes) last

namespace Step

variable {step : Step w} {a c : Fixed w}

theorem Exact.unique {a n n' : Int} (h : step.Exact a n) (h' : step.Exact a n') : n = n' := by
  cases h with
  | div division =>
    cases h' with
    | div division' => exact (division.unique division').1
  | rem division =>
    cases h' with
    | rem division' => exact (division.unique division').2
  | sqrt root =>
    cases h' with
    | sqrt root' => exact root.unique root'
  | _ =>
    cases h'
    rfl

theorem not_byZero_of_exact {a n : Int} (exact : step.Exact a n) : ¬ step.ByZero := by
  intro zero
  cases zero with
  | div zero =>
    cases exact with
    | div division => exact division.divisor_ne_zero zero
  | rem zero =>
    cases exact with
    | rem division => exact division.divisor_ne_zero zero

theorem Takes.unique {a b b' : Int} {outcome outcome' : Except Category Int}
    (h : step.Takes a outcome b) (h' : step.Takes a outcome' b') :
    outcome = outcome' ∧ b = b' := by
  cases h with
  | result exact holds =>
    cases h' with
    | result exact' _ =>
      obtain rfl := exact.unique exact'
      exact ⟨rfl, rfl⟩
    | byZero zero => exact absurd zero (not_byZero_of_exact exact)
    | beyond _ none => exact absurd holds (none _ exact)
  | byZero zero =>
    cases h' with
    | result exact _ => exact absurd zero (not_byZero_of_exact exact)
    | byZero _ => exact ⟨rfl, rfl⟩
    | beyond nonzero _ => exact absurd zero nonzero
  | beyond nonzero none =>
    cases h' with
    | result exact holds => exact absurd holds (none _ exact)
    | byZero zero => exact absurd zero nonzero
    | beyond _ _ => exact ⟨rfl, rfl⟩

theorem takes_of_ok (applied : step.apply a = .ok c) (exact : step.Exact a.val c.val) :
    step.Takes a.val (report (step.apply a)) (step.next a).val := by
  simp only [next, applied]
  exact .result exact ⟨c.lo_le, c.le_hi⟩

theorem takes_of_byZero {fault : Fault} (applied : step.apply a = .error fault)
    (category : fault.category = .divideByZero) (zero : step.ByZero) :
    step.Takes a.val (report (step.apply a)) (step.next a).val := by
  simp only [next, applied, report, category]
  exact .byZero zero

theorem takes_of_beyond {fault : Fault} (applied : step.apply a = .error fault)
    (category : fault.category = .range) (nonzero : ¬ step.ByZero)
    (none : ∀ n, step.Exact a.val n → ¬ w.Holds n) :
    step.Takes a.val (report (step.apply a)) (step.next a).val := by
  simp only [next, applied, report, category]
  exact .beyond nonzero none

theorem takes_of_checked {fault : Fault} {n : Int} (applied : step.apply a = checked fault n)
    (category : fault.category = .range) (exact : step.Exact a.val n) :
    step.Takes a.val (report (step.apply a)) (step.next a).val := by
  cases outcome : checked (w := w) fault n with
  | ok c =>
    obtain rfl := checked_eq_ok_iff.mp outcome
    exact takes_of_ok (applied.trans outcome) exact
  | error cause =>
    obtain ⟨rfl, outside⟩ := checked_eq_error_iff.mp outcome
    refine takes_of_beyond (applied.trans outcome) category (not_byZero_of_exact exact) ?_
    intro m other holds
    obtain rfl := other.unique exact
    have := holds.1
    have := holds.2
    omega

/-- One step does what exact arithmetic within the bounds does. -/
theorem takes_apply (a : Fixed w) (step : Step w) :
    step.Takes a.val (report (step.apply a)) (step.next a).val := by
  cases step with
  | add b => exact takes_of_checked rfl rfl .add
  | sub b => exact takes_of_checked rfl rfl .sub
  | mul b => exact takes_of_checked rfl rfl .mul
  | div b =>
    by_cases zero : b.val = 0
    · exact takes_of_byZero (if_pos zero) rfl (.div zero)
    · exact takes_of_checked (if_neg zero) rfl (.div (.tdiv_tmod a.val zero))
  | rem b =>
    by_cases zero : b.val = 0
    · exact takes_of_byZero (if_pos zero) rfl (.rem zero)
    · exact takes_of_ok (if_neg zero) (.rem (.tdiv_tmod a.val zero))
  | abs =>
    have exact : Exact (w := w) abs a.val a.val.natAbs := Int.abs_eq_natAbs a.val ▸ .abs
    exact takes_of_checked rfl rfl exact
  | neg => exact takes_of_checked rfl rfl .neg
  | sqrt =>
    by_cases negative : a.val < 0
    · refine takes_of_beyond (if_pos negative) rfl nofun ?_
      intro n exact holds
      cases exact with
      | sqrt root =>
        have := root.radicand_nonneg
        omega
    · exact takes_of_ok (if_neg negative) (.sqrt (.sqrt (by omega)))
  | ofLong n => exact takes_of_checked rfl rfl .ofLong

end Step

theorem runs_run (a : Fixed w) (steps : List (Step w)) :
    Runs a.val steps ((a.run steps).1.map report) (a.run steps).2.val := by
  induction steps generalizing a with
  | nil => exact .nil
  | cons step steps ih => exact .cons (step.takes_apply a) (ih (step.next a))

theorem Runs.unique {a last last' : Int} {steps : List (Step w)}
    {outcomes outcomes' : List (Except Category Int)} (h : Runs a steps outcomes last)
    (h' : Runs a steps outcomes' last') : outcomes = outcomes' ∧ last = last' := by
  induction h generalizing outcomes' with
  | nil =>
    cases h'
    exact ⟨rfl, rfl⟩
  | cons first rest ih =>
    cases h' with
    | cons first' rest' =>
      obtain ⟨rfl, rfl⟩ := first.unique first'
      obtain ⟨rfl, rfl⟩ := ih rest'
      exact ⟨rfl, rfl⟩

theorem report_checked {fault : Fault} (category : fault.category = .range) (n : Int) :
    report (checked (w := w) fault n) = if w.Holds n then .ok n else .error .range := by
  cases outcome : checked (w := w) fault n with
  | ok c =>
    obtain rfl := checked_eq_ok_iff.mp outcome
    exact (if_pos ⟨c.lo_le, c.le_hi⟩).symm
  | error cause =>
    obtain ⟨rfl, outside⟩ := checked_eq_error_iff.mp outcome
    have beyond : ¬ w.Holds n := by
      rintro ⟨lower, upper⟩
      omega
    simp only [report, category, if_neg beyond]

theorem exists_rem_of_div {a b q : Fixed w} (h : a.div b = .ok q) :
    ∃ r, a.rem b = .ok r ∧ a.val = q.val * b.val + r.val := by
  unfold div at h
  split at h
  · contradiction
  · rename_i nonzero
    refine ⟨_, if_neg nonzero, ?_⟩
    rw [checked_eq_ok_iff.mp h]
    exact (Division.tdiv_tmod a.val nonzero).split

theorem not_holds_neg_lo (w : Width) : ¬ w.Holds (-w.lo) := by
  rintro ⟨-, upper⟩
  have := w.lo_eq_neg_hi
  omega

theorem report_min_div (b : Fixed w) (minusOne : b.val = -1) :
    report ((min w).div b) = .error .range := by
  have nonzero : b.val ≠ 0 := by omega
  have quotient : (min w).val.tdiv b.val = -w.lo := by
    rw [minusOne, Int.tdiv_neg, Int.tdiv_one]
    rfl
  have divided : (min w).div b = checked (.overflow .quotient) (-w.lo) :=
    (if_neg nonzero).trans (congrArg _ quotient)
  rw [divided, report_checked rfl, if_neg (not_holds_neg_lo w)]

theorem report_min_rem (b : Fixed w) (minusOne : b.val = -1) :
    report ((min w).rem b) = .ok 0 := by
  have nonzero : b.val ≠ 0 := by omega
  have remainder : (min w).val.tmod b.val = 0 := by
    rw [minusOne, Int.tmod_neg, Int.tmod_one]
  simp only [rem, if_neg nonzero, report, remainder]

theorem report_min_neg (w : Width) : report (min w).neg = .error .range := by
  have negated : (min w).neg = checked (.negOutOfRange w.lo) (-w.lo) := rfl
  rw [negated, report_checked rfl, if_neg (not_holds_neg_lo w)]

theorem report_min_abs (w : Width) : report (min w).abs = .error .range := by
  have size : (w.lo.natAbs : Int) = -w.lo := by
    have := w.lo_neg
    omega
  have absolute : (min w).abs = checked (.absOutOfRange w.lo) (-w.lo) := congrArg _ size
  rw [absolute, report_checked rfl, if_neg (not_holds_neg_lo w)]

/-- A run of any steps shows what exact arithmetic within the bounds of the width shows, and nothing
else, and leaves the same integer; a last cast succeeds if the other width holds that integer, and
keeps it. Quotient and remainder belong together, and the least integer of a width can neither be
divided by minus one nor be negated, while its remainder is zero. -/
theorem run_refines (a : Fixed w) (steps : List (Step w)) :
    (∀ outcomes last, Runs a.val steps outcomes last ↔
      (a.run steps).1.map report = outcomes ∧ (a.run steps).2.val = last) ∧
    (∀ w' : Width, report ((a.run steps).2.cast w') =
      if w'.Holds (a.run steps).2.val then .ok (a.run steps).2.val else .error .range) ∧
    (∀ b q : Fixed w, a.div b = .ok q →
      ∃ r, a.rem b = .ok r ∧ a.val = q.val * b.val + r.val) ∧
    ∀ b : Fixed w, b.val = -1 →
      report ((min w).div b) = .error .range ∧ report (min w).neg = .error .range ∧
        report (min w).abs = .error .range ∧ report ((min w).rem b) = .ok 0 := by
  have own := runs_run a steps
  refine ⟨?_, ?_, fun _ _ => exists_rem_of_div, ?_⟩
  · intro outcomes last
    constructor
    · intro runs
      exact own.unique runs
    · rintro ⟨rfl, rfl⟩
      exact own
  · intro w'
    exact report_checked rfl _
  · intro b minusOne
    exact ⟨report_min_div b minusOne, report_min_neg w, report_min_abs w,
      report_min_rem b minusOne⟩

theorem run_refines_tinyint :
    let n (k : Int) (h : Width.tinyint.Holds k) : Fixed .tinyint := ⟨k, h.1, h.2⟩
    let long (k : Int) (h : Width.bigint.Holds k) : Long := ⟨k, h.1, h.2⟩
    let steps : List (Step .tinyint) :=
      [.neg, .abs, .div (n (-1) (by decide)), .rem (n 0 (by decide)), .add (n 28 (by decide)),
        .div (n 7 (by decide)), .rem (n 4 (by decide)), .sqrt, .abs, .ofLong (long 200 (by decide)),
        .ofLong (long 99 (by decide)), .sqrt, .mul (n 15 (by decide)), .sub (n 29 (by decide))]
    Runs (-128) steps
      [.error .range, .error .range, .error .range, .error .divideByZero, .ok (-100),
        .ok (-14), .ok (-2), .error .range, .ok 2, .error .range,
        .ok 99, .ok 9, .error .range, .ok (-20)] (-20) ∧
      report (((min .tinyint).run steps).2.cast .int) = .ok (-20) ∧
      (∃ r, (n (-20) (by decide)).rem (n 7 (by decide)) = .ok r ∧ -20 = -2 * 7 + r.val) ∧
      report ((min .tinyint).rem (n (-1) (by decide))) = .ok 0 := by
  intro n long steps
  have shown : ((min .tinyint).run steps).1.map report =
      [.error .range, .error .range, .error .range, .error .divideByZero, .ok (-100),
        .ok (-14), .ok (-2), .error .range, .ok 2, .error .range,
        .ok 99, .ok 9, .error .range, .ok (-20)] := by
    subst steps n long
    decide +kernel
  have left : ((min .tinyint).run steps).2.val = -20 := by
    subst steps n long
    decide +kernel
  have divided : (n (-20) (by decide)).div (n 7 (by decide)) = .ok (n (-2) (by decide)) := by
    rfl
  have refines := run_refines (min .tinyint) steps
  refine ⟨(refines.1 _ _).mpr ⟨shown, left⟩, ?_, ?_, ?_⟩
  · rw [refines.2.1 .int, left]
    rfl
  · exact (run_refines (n (-20) (by decide)) steps).2.2.1 _ _ divided
  · exact (refines.2.2.2 (n (-1) (by decide)) rfl).2.2.2

end Fixed

end Cql
