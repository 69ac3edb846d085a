import Cql.Fixed
import Mathlib.Data.List.TakeWhile
import Mathlib.Tactic

namespace Cql

theorem digitsValue_eq (ds : List Char) : digitsValue ds = Nat.ofDigitChars 10 ds 0 :=
  Nat.ofDigitChars_eq_foldl.symm

theorem digitsValue_toDigits (n : Nat) : digitsValue (Nat.toDigits 10 n) = n := by
  rw [digitsValue_eq, Nat.ofDigitChars_ten_toDigits]

theorem digitsValue_append_zeros (ds : List Char) (k : Nat) :
    digitsValue (ds ++ List.replicate k '0') = digitsValue ds * 10 ^ k := by
  rw [digitsValue_eq, Nat.ofDigitChars_append, Nat.ofDigitChars_replicate_zero, ← digitsValue_eq,
    Nat.mul_comm]

theorem digitsValue_zeros_append (ds : List Char) (k : Nat) :
    digitsValue (List.replicate k '0' ++ ds) = digitsValue ds := by
  rw [digitsValue_eq, Nat.ofDigitChars_append, Nat.ofDigitChars_replicate_zero, Nat.mul_zero,
    ← digitsValue_eq]

theorem isDigit_of_mem {n : Nat} {c : Char} (h : c ∈ Nat.toDigits 10 n) : c.isDigit :=
  Nat.isDigit_of_mem_toDigits (by decide) (by decide) h

theorem not_sign_of_isDigit {c : Char} (digit : c.isDigit) : c ≠ '-' ∧ c ≠ '+' := by
  constructor <;> rintro rfl <;> contradiction

theorem takeSign_signed (negative : Bool) {s : List Char}
    (unsigned : ∀ c ∈ s.head?, c ≠ '-' ∧ c ≠ '+') :
    takeSign ((if negative then ['-'] else []) ++ s) = (negative, s) := by
  cases negative
  · change takeSign s = (false, s)
    unfold takeSign
    split <;> simp_all
  · rfl

theorem exists_sign (s : List Char) :
    ∃ sign ∈ [[], ['+'], ['-']], s = sign ++ (takeSign s).2 := by
  unfold takeSign
  split
  · exact ⟨['-'], by simp, rfl⟩
  · exact ⟨['+'], by simp, rfl⟩
  · exact ⟨[], by simp, rfl⟩

theorem takeSign_digits {sign ds : List Char} (known : sign ∈ [[], ['+'], ['-']])
    (digits : ∀ c ∈ ds, c.isDigit) : takeSign (sign ++ ds) = (decide (sign = ['-']), ds) := by
  have unsigned : takeSign ds = (false, ds) :=
    takeSign_signed false fun c h => not_sign_of_isDigit (digits c (List.mem_of_mem_head? h))
  rcases (by simpa using known : sign = [] ∨ sign = ['+'] ∨ sign = ['-']) with rfl | rfl | rfl
  · exact unsigned
  · rfl
  · rfl

theorem toList_toString (n : Int) :
    (toString n).toList = (if n < 0 then ['-'] else []) ++ Nat.toDigits 10 n.natAbs := by
  cases n with
  | ofNat n => simp [toString, Int.repr]
  | negSucc n => simp [toString, Int.repr]

namespace Numeral

variable {lo hi : Int}

theorem le_ofDigitChars (ds : List Char) (n : Nat) : n ≤ Nat.ofDigitChars 10 ds n := by
  rw [Nat.ofDigitChars_eq_ofDigitChars_zero]
  have := Nat.mul_le_mul_right n (Nat.one_le_pow ds.length 10 (by decide))
  omega

def signed (negative : Bool) (n : Nat) : Int := if negative then -n else n

theorem signed_natAbs (n : Int) : signed (n < 0) n.natAbs = n := by
  unfold signed
  simp only [decide_eq_true_eq]
  omega

theorem signed_next (negative : Bool) (n : Nat) {c : Char} (digit : c.isDigit) :
    (if negative then 10 * signed negative n - ((c.toNat : Int) - '0'.toNat)
      else 10 * signed negative n + ((c.toNat : Int) - '0'.toNat)) =
      signed negative (10 * n + (c.toNat - '0'.toNat)) := by
  have least : '0'.toNat ≤ c.toNat := by
    simp only [Char.isDigit, Bool.and_eq_true, decide_eq_true_eq, ge_iff_le,
      UInt32.le_iff_toNat_le] at digit
    exact digit.1
  cases negative <;> simp only [signed, if_true, if_false, Bool.false_eq_true] <;> omega

/-- What has left the bounds on one side does not come back with more digits. -/
theorem signed_below (nonpos : lo ≤ 0) {negative : Bool} {n m : Nat} (grown : n ≤ m)
    (below : signed negative n < lo) : signed negative m < lo := by
  cases negative <;> simp only [signed, if_true, if_false, Bool.false_eq_true] at * <;> omega

theorem signed_above (nonneg : 0 ≤ hi) {negative : Bool} {n m : Nat} (grown : n ≤ m)
    (above : hi < signed negative n) : hi < signed negative m := by
  cases negative <;> simp only [signed, if_true, if_false, Bool.false_eq_true] at * <;> omega

/-- Numbers grow away from zero as their digits are read. So bounds that any digit leaves are left
by all the digits at the start of a text together, and these decide before what stands behind
them. -/
theorem readDigits_eq (nonpos : lo ≤ 0) (nonneg : 0 ≤ hi) (negative : Bool) (s : List Char)
    (n : Nat) (lower : lo ≤ signed negative n) (upper : signed negative n ≤ hi) :
    readDigits lo hi negative s (signed negative n) =
      let led := signed negative (Nat.ofDigitChars 10 (s.takeWhile Char.isDigit) n)
      if led < lo then .error .tooSmall
      else if hi < led then .error .tooLarge
      else if s.all Char.isDigit then .ok led
      else .error .invalidDigit := by
  induction s generalizing n with
  | nil =>
    have inside : ¬ signed negative n < lo ∧ ¬ hi < signed negative n := by omega
    simp [readDigits, inside]
  | cons c s ih =>
    cases digit : c.isDigit with
    | false =>
      have inside : ¬ signed negative n < lo ∧ ¬ hi < signed negative n := by omega
      simp [readDigits, digit, inside]
    | true =>
      have grown := le_ofDigitChars (s.takeWhile Char.isDigit) (10 * n + (c.toNat - '0'.toNat))
      simp only [readDigits, digit, if_true, signed_next negative n digit, List.takeWhile_cons,
        Nat.ofDigitChars_cons, List.all_cons, Bool.true_and]
      generalize 10 * n + (c.toNat - '0'.toNat) = next at *
      by_cases below : signed negative next < lo
      · rw [if_pos below, if_pos (signed_below nonpos grown below)]
      · by_cases above : hi < signed negative next
        · have beyond := signed_above nonneg grown above
          rw [if_neg below, if_pos above, if_neg (by omega), if_pos beyond]
        · rw [if_neg below, if_neg above]
          exact ih next (by omega) (by omega)

def WellFormed (s : String) : Prop :=
  ∃ sign ds, sign ∈ [[], ['+'], ['-']] ∧ ds ≠ [] ∧ (∀ c ∈ ds, c.isDigit) ∧ s.toList = sign ++ ds

/-- The number that the digits at the start of a text denote, behind its sign if it has one. -/
def leading (s : String) : Int :=
  let (negative, ds) := takeSign s.toList
  signed negative (digitsValue (ds.takeWhile Char.isDigit))

theorem wellFormed_iff {s : String} :
    WellFormed s ↔ (takeSign s.toList).2 ≠ [] ∧ (takeSign s.toList).2.all Char.isDigit := by
  rw [List.all_eq_true]
  constructor
  · rintro ⟨sign, ds, known, nonempty, digits, split⟩
    rw [split, takeSign_digits known digits]
    exact ⟨nonempty, digits⟩
  · rintro ⟨nonempty, digits⟩
    obtain ⟨sign, known, split⟩ := exists_sign s.toList
    exact ⟨sign, _, known, nonempty, digits, split⟩

instance (s : String) : Decidable (WellFormed s) := decidable_of_iff' _ wellFormed_iff

/-- What is read of any text: the digits at its start decide whether it is out of bounds, and only
if they are not does it matter whether the text is well-formed. -/
theorem read_eq (nonpos : lo ≤ 0) (nonneg : 0 ≤ hi) (s : String) :
    read lo hi s =
      if leading s < lo then .error .tooSmall
      else if hi < leading s then .error .tooLarge
      else if WellFormed s then .ok (leading s)
      else .error (if s = "" then .empty else .invalidDigit) := by
  have zero (negative : Bool) : signed negative 0 = 0 := by cases negative <;> rfl
  have inside : ¬ (0 : Int) < lo ∧ ¬ hi < 0 := by omega
  have bare (none : (takeSign s.toList).2 = []) : leading s = 0 ∧ ¬ WellFormed s := by
    rw [wellFormed_iff]
    simp [leading, none, digitsValue, zero]
  unfold read
  split
  · rename_i nil
    obtain rfl : s = "" := String.toList_eq_nil_iff.mp nil
    simp [bare rfl, inside]
  · rename_i nonempty
    have present : s ≠ "" := fun same => nonempty (by simp [same])
    by_cases none : (takeSign s.toList).2 = []
    · simp [bare none, none, inside, present]
    · have led := readDigits_eq nonpos nonneg (takeSign s.toList).1 (takeSign s.toList).2 0
        (by rw [zero]; exact nonpos) (by rw [zero]; exact nonneg)
      have wellFormed : WellFormed s ↔ (takeSign s.toList).2.all Char.isDigit := by
        simp [wellFormed_iff, none]
      rw [zero, ← digitsValue_eq] at led
      simp only [List.isEmpty_iff, none, if_false, led, wellFormed, present, leading]

/-- The text is a sign, which may be left out, and one decimal digit or more; the integer is the
number that the digits denote, below zero if the sign is a minus. -/
def Denotes (s : String) (n : Int) : Prop :=
  ∃ sign ds, sign ∈ [[], ['+'], ['-']] ∧ ds ≠ [] ∧ (∀ c ∈ ds, c.isDigit) ∧
    s.toList = sign ++ ds ∧ n = signed (sign = ['-']) (digitsValue ds)

theorem leading_eq {s : String} {sign ds : List Char} (known : sign ∈ [[], ['+'], ['-']])
    (digits : ∀ c ∈ ds, c.isDigit) (split : s.toList = sign ++ ds) :
    leading s = signed (sign = ['-']) (digitsValue ds) := by
  unfold leading
  rw [split, takeSign_digits known digits]
  dsimp only
  rw [List.takeWhile_eq_self_iff.mpr digits]

theorem denotes_iff {s : String} {n : Int} : Denotes s n ↔ WellFormed s ∧ leading s = n := by
  constructor
  · rintro ⟨sign, ds, known, nonempty, digits, split, rfl⟩
    exact ⟨⟨sign, ds, known, nonempty, digits, split⟩, leading_eq known digits split⟩
  · rintro ⟨⟨sign, ds, known, nonempty, digits, split⟩, rfl⟩
    exact ⟨sign, ds, known, nonempty, digits, split, leading_eq known digits split⟩

instance (s : String) (n : Int) : Decidable (Denotes s n) := decidable_of_iff' _ denotes_iff

theorem denotes_toString (n : Int) : Denotes (toString n) n := by
  refine ⟨_, _, ?_, Nat.toDigits_ne_nil, fun c h => isDigit_of_mem h, toList_toString n, ?_⟩
  · split <;> simp
  · rw [digitsValue_toDigits]
    conv_lhs => rw [← signed_natAbs n]
    split <;> simp [*]

theorem read_toString {n : Int} (nonpos : lo ≤ 0) (nonneg : 0 ≤ hi) (lower : lo ≤ n)
    (upper : n ≤ hi) : read lo hi (toString n) = .ok n := by
  obtain ⟨wellFormed, value⟩ := denotes_iff.mp (denotes_toString n)
  rw [read_eq nonpos nonneg, value, if_neg (by omega), if_neg (by omega), if_pos wellFormed]

end Numeral

namespace Fixed

variable {w : Width}

theorem reading_bounds (w : Width) : -readingBound ≤ w.lo ∧ w.hi < readingBound - 1 := by
  cases w <;> decide

theorem ofText_text (n : Fixed w) : ofText w n.text = .ok n := by
  have lower := n.lo_le
  have upper := n.le_hi
  have bounds := reading_bounds w
  have read : Numeral.read (-readingBound) (readingBound - 1) (toString n.val) = .ok n.val :=
    Numeral.read_toString (by decide) (by decide) (by omega) (by omega)
  unfold ofText text
  rw [read]
  exact checked_eq_ok_iff.mpr rfl

end Fixed

end Cql
