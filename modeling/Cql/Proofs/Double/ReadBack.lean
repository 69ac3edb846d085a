import Cql.Proofs.Double.Nearest
import Cql.Proofs.Numeral
import Cql.Proofs.Reader
import Cql.Proofs.Value.Canonical

/-!
The text of a double reads back as the double. The shortest decimal that is found for a double is
one that reads back as it; where none is found the exact value is written, which does too. Neither
zeros at the end of a coefficient nor writing out an exponent change what is read.
-/

namespace Cql

namespace Decimal

variable {c : Nat} {e : Int}

theorem digits_ten_mul (nonzero : c ≠ 0) :
    (⟨10 * c, e⟩ : Decimal).digits.length = (⟨c, e⟩ : Decimal).digits.length + 1 := by
  change (Nat.toDigits 10 (10 * c)).length = (Nat.toDigits 10 c).length + 1
  rw [Nat.toDigits_of_base_le (by decide) (by omega), Nat.mul_div_cancel_left c (by decide)]
  exact List.length_append

theorem toDouble_ten_mul (negative : Bool) (nonzero : c ≠ 0) :
    toDouble negative ⟨10 * c, e⟩ = toDouble negative ⟨c, e + 1⟩ := by
  have place : pointPlace ⟨10 * c, e⟩ = pointPlace ⟨c, e + 1⟩ := by
    have longer := digits_ten_mul (e := e) nonzero
    have same : (⟨c, e + 1⟩ : Decimal).digits = (⟨c, e⟩ : Decimal).digits := rfl
    unfold pointPlace
    rw [same, longer]
    push_cast
    ring
  have ratio : Double.ofRatio negative (10 * c * 10 ^ e.toNat) (10 ^ (-e).toNat) =
      Double.ofRatio negative (c * 10 ^ (e + 1).toNat) (10 ^ (-(e + 1)).toNat) := by
    rcases Int.lt_or_le e 0 with neg | nonneg
    · have power : (-e).toNat = (-(e + 1)).toNat + 1 := by omega
      have least : e.toNat = (e + 1).toNat := by omega
      rw [power, least, Nat.pow_succ', Nat.mul_assoc,
        Double.ofRatio_mul negative _ (by decide) (by positivity)]
    · have power : (e + 1).toNat = e.toNat + 1 := by omega
      have one : (-e).toNat = 0 ∧ (-(e + 1)).toNat = 0 := by omega
      rw [power, one.1, one.2, Nat.pow_succ']
      congr 1
      ring
  have coefficient : 10 * c ≠ 0 := by omega
  simp only [toDouble, place, nonzero, coefficient, if_false, Nat.pow_eq, ratio]

theorem toDouble_mul_pow (negative : Bool) (nonzero : c ≠ 0) (k : Nat) (e : Int) :
    toDouble negative ⟨c * 10 ^ k, e⟩ = toDouble negative ⟨c, e + k⟩ := by
  induction k generalizing e with
  | zero => simp
  | succ k ih =>
    have product : c * 10 ^ (k + 1) = 10 * (c * 10 ^ k) := by ring
    rw [product, toDouble_ten_mul negative (by positivity), ih]
    congr 2
    push_cast
    ring

theorem toDouble_trimZeros (negative : Bool) (fuel : Nat) (x : Decimal) :
    toDouble negative (x.trimZeros fuel) = toDouble negative x := by
  induction fuel generalizing x with
  | zero => rfl
  | succ fuel ih =>
    unfold trimZeros
    split
    · rename_i h
      have tens : x.coefficient = 10 * (x.coefficient / 10) := by omega
      rw [ih, ← toDouble_ten_mul negative (by omega), ← tens]
    · rfl

theorem read?_digits {ds : List Char} (digits : ∀ c ∈ ds, c.isDigit) (nonempty : ds ≠ []) :
    read? ds = some ⟨digitsValue ds, 0⟩ := by
  have whole : ds.takeWhile Char.isDigit = ds := List.takeWhile_eq_self_iff.mpr digits
  have rest : ds.dropWhile Char.isDigit = [] := List.dropWhile_eq_nil_iff.mpr digits
  unfold read?
  simp [whole, rest, nonempty, readExponent?]

theorem read?_point {ds es : List Char} (whole : ∀ c ∈ ds, c.isDigit) (part : ∀ c ∈ es, c.isDigit)
    (nonempty : ds ≠ []) :
    read? (ds ++ '.' :: es) = some ⟨digitsValue (ds ++ es), -es.length⟩ := by
  have taken : (ds ++ '.' :: es).takeWhile Char.isDigit = ds :=
    takeWhile_run whole (by simp [Char.isDigit])
  have left : (ds ++ '.' :: es).dropWhile Char.isDigit = '.' :: es :=
    dropWhile_run whole (by simp [Char.isDigit])
  have taken' : es.takeWhile Char.isDigit = es := List.takeWhile_eq_self_iff.mpr part
  have left' : es.dropWhile Char.isDigit = [] := List.dropWhile_eq_nil_iff.mpr part
  unfold read?
  simp [taken, left, taken', left', nonempty, readExponent?]

theorem isDigit_of_mem_zeros {k : Nat} {c : Char} (h : c ∈ List.replicate k '0') : c.isDigit := by
  rw [List.eq_of_mem_replicate h]
  rfl

theorem isDigit_of_mem_digits {x : Decimal} {c : Char} (h : c ∈ x.digits) : c.isDigit :=
  isDigit_of_mem h

theorem positional_eq (x : Decimal) :
    x.positional =
      if 0 ≤ x.exponent then x.digits ++ List.replicate x.exponent.toNat '0'
      else if 0 < x.pointPlace then
        x.digits.take x.pointPlace.toNat ++ '.' :: x.digits.drop x.pointPlace.toNat
      else ['0'] ++ '.' :: (List.replicate (-x.pointPlace).toNat '0' ++ x.digits) := rfl

/-- A written number is read as it is but for an exponent above zero, which is written out. -/
theorem read?_positional (x : Decimal) :
    read? x.positional =
      some (if 0 ≤ x.exponent then ⟨x.coefficient * 10 ^ x.exponent.toNat, 0⟩ else x) := by
  have value : digitsValue x.digits = x.coefficient := digitsValue_toDigits x.coefficient
  have place : x.pointPlace = x.digits.length + x.exponent := rfl
  have nonempty : x.digits ≠ [] := Nat.toDigits_ne_nil
  have size : 0 < x.digits.length := Nat.length_toDigits_pos
  rw [positional_eq]
  split
  · rw [read?_digits _ (by simp [nonempty]), digitsValue_append_zeros, value]
    intro c h
    rcases List.mem_append.mp h with h | h
    · exact isDigit_of_mem_digits h
    · exact isDigit_of_mem_zeros h
  · split
    · have exponent : -((x.digits.drop x.pointPlace.toNat).length : Int) = x.exponent := by
        rw [List.length_drop]
        omega
      rw [read?_point, List.take_append_drop, value, exponent]
      · exact fun c h => isDigit_of_mem_digits (List.mem_of_mem_take h)
      · exact fun c h => isDigit_of_mem_digits (List.mem_of_mem_drop h)
      · intro h
        have := congrArg List.length h
        simp only [List.length_take, List.length_nil] at this
        omega
    · have exponent :
          -((List.replicate (-x.pointPlace).toNat '0' ++ x.digits).length : Int) = x.exponent := by
        rw [List.length_append, List.length_replicate]
        omega
      have zeros : ['0'] ++ (List.replicate (-x.pointPlace).toNat '0' ++ x.digits) =
          List.replicate ((-x.pointPlace).toNat + 1) '0' ++ x.digits := rfl
      rw [read?_point _ _ (by simp), exponent, zeros, digitsValue_zeros_append, value]
      · simp [Char.isDigit]
      · intro c h
        rcases List.mem_append.mp h with h | h
        · exact isDigit_of_mem_zeros h
        · exact isDigit_of_mem_digits h

theorem toDouble_written (negative : Bool) (x : Decimal) :
    toDouble negative (if 0 ≤ x.exponent then ⟨x.coefficient * 10 ^ x.exponent.toNat, 0⟩ else x) =
      toDouble negative x := by
  split
  · rename_i nonneg
    by_cases zero : x.coefficient = 0
    · simp [toDouble, zero]
    · rw [toDouble_mul_pow negative zero, Int.toNat_of_nonneg nonneg, Int.zero_add]
  · rfl

theorem exists_positional_eq (x : Decimal) : ∃ c s, x.positional = c :: s ∧ c.isDigit := by
  have nonempty : x.digits ≠ [] := Nat.toDigits_ne_nil
  obtain ⟨c, ds, h⟩ := List.exists_cons_of_ne_nil nonempty
  have digit : c.isDigit := isDigit_of_mem_digits (x := x) (by simp [h])
  rw [positional_eq]
  split
  · exact ⟨c, _, by rw [h]; rfl, digit⟩
  · split
    · obtain ⟨k, hk⟩ : ∃ k, x.pointPlace.toNat = k + 1 :=
        Nat.exists_eq_succ_of_ne_zero (by omega)
      exact ⟨c, _, by rw [h, hk]; rfl, digit⟩
    · exact ⟨'0', _, rfl, rfl⟩

theorem mem_positional {x : Decimal} {c : Char} (h : c ∈ x.positional) : c.isDigit ∨ c = '.' := by
  have digits := @isDigit_of_mem_digits x c
  have zeros := @isDigit_of_mem_zeros
  rw [positional_eq] at h
  split at h
  · rcases List.mem_append.mp h with h | h
    · exact .inl (digits h)
    · exact .inl (zeros h)
  · split at h
    · rcases List.mem_append.mp h with h | h
      · exact .inl (digits (List.mem_of_mem_take h))
      · rcases List.mem_cons.mp h with h | h
        · exact .inr h
        · exact .inl (digits (List.mem_of_mem_drop h))
    · rcases List.mem_append.mp h with h | h
      · exact .inl (List.mem_singleton.mp h ▸ rfl)
      · rcases List.mem_cons.mp h with h | h
        · exact .inr h
        · rcases List.mem_append.mp h with h | h
          · exact .inl (zeros h)
          · exact .inl (digits h)

end Decimal

namespace Double

theorem toDouble_searchGrids {tie : Tie} {d : Double} {grids : Nat} {e : Int} {x : Decimal}
    (found : d.searchGrids tie grids e = some x) : x.toDouble d.negative = d := by
  induction grids generalizing e with
  | zero => simp [searchGrids] at found
  | succ grids ih =>
    unfold searchGrids at found
    split at found
    · rename_i y h
      obtain rfl : y = x := Option.some.inj found
      simpa using List.find?_some h
    · exact ih found

theorem exponent_le {d : Double} (finite : d.isFinite) : d.exponent ≤ 971 := by
  have bound := infinite_eq
  simp only [isFinite, decide_eq_true_eq] at finite
  unfold exponent
  rw [Nat.shiftRight_eq_div_pow]
  omega

theorem toDouble_of_pointPlace {negative : Bool} {x : Decimal} (nonzero : x.coefficient ≠ 0)
    (least : -400 ≤ x.pointPlace) (greatest : x.pointPlace ≤ 400) :
    x.toDouble negative =
      ofRatio negative (x.coefficient * 10 ^ x.exponent.toNat) (10 ^ (-x.exponent).toNat) := by
  unfold Decimal.toDouble
  rw [if_neg nonzero, if_neg (by omega), if_neg (by omega)]
  rfl

theorem two_pow_le {k n : Nat} (h : k ≤ 3 * n) : 2 ^ k ≤ 10 ^ n :=
  calc 2 ^ k ≤ 2 ^ (3 * n) := Nat.pow_le_pow_right (by decide) h
    _ = (2 ^ 3) ^ n := Nat.pow_mul 2 3 n
    _ ≤ 10 ^ n := Nat.pow_le_pow_left (by decide) n

theorem digits_of_fraction {s k : Nat} (nonzero : s ≠ 0) (small : s < 2 ^ 53) (bound : k ≤ 1074) :
    k ≤ 400 + (Nat.toDigits 10 (s * 5 ^ k)).length ∧
      (Nat.toDigits 10 (s * 5 ^ k)).length ≤ k + 16 := by
  constructor
  · by_contra few
    have below : s * 5 ^ k < 10 ^ (k - 400) :=
      (Nat.length_toDigits_le_iff (by decide) (by omega)).mp (by omega)
    have above : 10 ^ (k - 400) ≤ 5 ^ k := by
      apply Nat.le_of_mul_le_mul_right _ (Nat.pow_pos (n := 400) (by decide : 0 < 10))
      calc 10 ^ (k - 400) * 10 ^ 400 = 10 ^ k := by rw [← Nat.pow_add]; congr 1; omega
        _ = 5 ^ k * 2 ^ k := (Nat.mul_pow 5 2 k)
        _ ≤ 5 ^ k * 10 ^ 400 := Nat.mul_le_mul_left _ (two_pow_le (by omega))
    have positive := Nat.le_mul_of_pos_left (5 ^ k) (Nat.pos_of_ne_zero nonzero)
    omega
  · apply (Nat.length_toDigits_le_iff (by decide) (by omega)).mpr
    calc s * 5 ^ k < 10 ^ 16 * 5 ^ k := Nat.mul_lt_mul_of_pos_right (by omega) (by positivity)
      _ ≤ 10 ^ 16 * 10 ^ k := Nat.mul_le_mul_left _ (Nat.pow_le_pow_left (by decide) k)
      _ = 10 ^ (k + 16) := by ring

theorem digits_of_integer {s k : Nat} (small : s < 2 ^ 53) (bound : k ≤ 971) :
    (Nat.toDigits 10 (s * 2 ^ k)).length ≤ 400 := by
  apply (Nat.length_toDigits_le_iff (by decide) (by decide)).mpr
  calc s * 2 ^ k < 2 ^ 53 * 2 ^ k := Nat.mul_lt_mul_of_pos_right small (by positivity)
    _ = 2 ^ (53 + k) := (Nat.pow_add 2 53 k).symm
    _ ≤ 10 ^ 400 := two_pow_le (by omega)

/-- The exact decimal of a double reads back as the double, however many digits that takes. -/
theorem toDouble_exactDecimal {d : Double} (finite : d.isFinite) (nonzero : d.isZero = false) :
    d.exactDecimal.toDouble d.negative = d := by
  have hs := significand_ne_zero nonzero
  have small := d.significand_bounds.1
  have least := d.exponent_ge
  have greatest := exponent_le finite
  have value := ofRatio_num_den finite nonzero
  unfold exactDecimal
  split
  · rename_i nonneg
    have digits : (Nat.toDigits 10 d.num).length ≤ 400 := by
      rw [num, Nat.shiftLeft_eq]
      exact digits_of_integer small (by omega)
    have den : d.den = 1 := by
      have none : (-d.exponent).toNat = 0 := by omega
      rw [Double.den, none]
      rfl
    rw [toDouble_of_pointPlace]
    · rw [den] at value
      simpa using value
    · simpa [num, Nat.shiftLeft_eq] using hs
    · simp only [Decimal.pointPlace, Decimal.digits]
      omega
    · simp only [Decimal.pointPlace, Decimal.digits]
      omega
  · obtain ⟨k, hk⟩ : ∃ k : Nat, (-d.exponent).toNat = k := ⟨_, rfl⟩
    obtain ⟨many, few⟩ := digits_of_fraction (k := k) hs small (by omega)
    have none : d.exponent.toNat = 0 := by omega
    rw [hk, toDouble_of_pointPlace]
    · have terms : d.significand * 5 ^ k = 5 ^ k * d.num ∧ 10 ^ k = 5 ^ k * d.den := by
        rw [num, den, none, hk, Nat.shiftLeft_eq, Nat.shiftLeft_eq, Nat.one_mul,
          ← Nat.mul_pow 5 2 k]
        exact ⟨by ring, rfl⟩
      simp only [hk, none, Nat.pow_eq, Nat.pow_zero, Nat.mul_one]
      rw [terms.1, terms.2, ofRatio_mul _ _ (by positivity) d.den_ne_zero, value]
    · simpa using hs
    · simp only [Decimal.pointPlace, Decimal.digits, Nat.pow_eq]
      omega
    · simp only [Decimal.pointPlace, Decimal.digits, Nat.pow_eq]
      omega

theorem toDouble_shortest {d : Double} (finite : d.isFinite) (tie : Tie) :
    (d.shortest tie).toDouble d.negative = d := by
  unfold shortest
  split
  · rename_i zero
    simp only [isZero, decide_eq_true_eq] at zero
    calc Decimal.toDouble d.negative ⟨0, 0⟩
      _ = ofMagnitude d.negative 0 := rfl
      _ = ofMagnitude d.negative d.magnitude := by rw [zero]
      _ = d := ofMagnitude_magnitude d
  · rename_i nonzero
    rw [Decimal.toDouble_trimZeros]
    cases found : d.searchGrids tie 20 d.powerAbove with
    | some x => exact toDouble_searchGrids found
    | none => exact toDouble_exactDecimal finite (by simpa using nonzero)

theorem text_of_isNaN {d : Double} (h : d.isNaN) : d.text.toList = ['N', 'a', 'N'] := by
  unfold text
  rw [if_pos h]
  rfl

theorem text_of_number {d : Double} (h : d.isNaN = false) :
    d.text.toList = (if d.negative then ['-'] else []) ++
      if d.isInfinite then ['i', 'n', 'f'] else (d.shortest .away).positional := by
  unfold text
  rw [if_neg (by simp [h])]
  split <;> split <;> simp

theorem isFinite_of_number {d : Double} (number : d.isNaN = false)
    (bounded : d.isInfinite = false) : d.isFinite := by
  simp only [isNaN, isInfinite, decide_eq_false_iff_not] at number bounded
  simp only [isFinite, decide_eq_true_eq]
  omega

theorem infinity_of_isInfinite {d : Double} (h : d.isInfinite) : infinity d.negative = d := by
  simp only [isInfinite, decide_eq_true_eq] at h
  unfold infinity
  rw [← h]
  exact ofMagnitude_magnitude d

theorem toLower_of_isDigit {c : Char} (digit : c.isDigit) : c.toLower = c := by
  unfold Char.toLower
  simp [Char.isDigit, UInt32.le_iff_toNat_le] at *
  omega

theorem read?_of_isDigit {t : String} {negative : Bool} {c : Char} {s : List Char}
    (digit : c.isDigit) (taken : takeSign t.toList = (negative, c :: s)) :
    read? t = (Decimal.read? (c :: s)).map (·.toDouble negative) := by
  have word {w : String} (letter : w.toList.head? ≠ some c) :
      String.ofList ((c :: s).map Char.toLower) ≠ w := by
    rintro rfl
    rw [String.toList_ofList, List.map_cons, toLower_of_isDigit digit] at letter
    exact letter rfl
  have inf : "inf".toList.head? ≠ some c := by rintro h; cases h; contradiction
  have infinity : "infinity".toList.head? ≠ some c := by rintro h; cases h; contradiction
  have nan : "nan".toList.head? ≠ some c := by rintro h; cases h; contradiction
  unfold read?
  simp only [taken]
  rw [if_neg (not_or.mpr ⟨word inf, word infinity⟩), if_neg (word nan)]

/-- The text of a double reads back as the double, but for the pattern of NaN. -/
theorem read?_text (d : Double) : read? d.text = some d.canonical := by
  cases number : d.isNaN
  · rw [canonical_of_number number]
    have written := text_of_number number
    cases infinite : d.isInfinite
    · have finite := isFinite_of_number number infinite
      obtain ⟨c, s, first, digit⟩ := Decimal.exists_positional_eq (d.shortest .away)
      have sign : takeSign d.text.toList = (d.negative, c :: s) := by
        simp only [written, infinite, Bool.false_eq_true, if_false, first]
        apply takeSign_signed
        rintro _ ⟨⟩
        exact not_sign_of_isDigit digit
      rw [read?_of_isDigit digit sign, ← first, Decimal.read?_positional]
      simp only [Option.map_some, Decimal.toDouble_written, toDouble_shortest finite]
    · have sign : takeSign d.text.toList = (d.negative, ['i', 'n', 'f']) := by
        simp only [written, infinite, if_true]
        apply takeSign_signed
        rintro _ ⟨⟩
        decide
      unfold read?
      simp only [sign]
      rw [if_pos (.inl rfl), infinity_of_isInfinite infinite]
  · have sign : takeSign d.text.toList = (false, ['N', 'a', 'N']) := by
      rw [text_of_isNaN number]
      rfl
    rw [canonical_of_isNaN number]
    unfold read?
    simp only [sign]
    rfl

end Double

end Cql
