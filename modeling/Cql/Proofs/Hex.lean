import Cql.Hex
import Mathlib.Tactic

namespace Cql.Hex

inductive Digits : List Char → List UInt8 → Prop
  | nil : Digits [] []
  | cons {a b : Char} {high low : Nat} {s : List Char} {bytes : List UInt8}
      (first : digitValue? a = some high) (second : digitValue? b = some low)
      (rest : Digits s bytes) : Digits (a :: b :: s) (UInt8.ofNat (16 * high + low) :: bytes)

def Paired (s : List Char) : Prop := Even s.length ∧ ∀ c ∈ s, (digitValue? c).isSome

instance (s : List Char) : Decidable (Paired s) :=
  have : Decidable (∀ c ∈ s, (digitValue? c).isSome) := List.decidableBAll _ s
  instDecidableAnd

/-- What is read where a plus sign stands in the first place of a pair. -/
def plusAsZero : List Char → List Char
  | a :: b :: s => (if a = '+' then '0' else a) :: b :: plusAsZero s
  | s => s

variable {a b c : Char} {s : List Char} {bytes : List UInt8}

section Encoding

theorem isAlphanum_of_mem_encode (h : c ∈ encode bytes) : c.isAlphanum := by
  have digits : ∀ n < 16, (digit n).isAlphanum := by decide
  induction bytes with
  | nil => exact absurd h List.not_mem_nil
  | cons b bytes ih =>
    have small : b.toNat < 256 := b.toNat_lt
    rcases List.mem_cons.mp h with rfl | h
    · exact digits _ (by omega)
    · rcases List.mem_cons.mp h with rfl | h
      · exact digits _ (by omega)
      · exact ih h

theorem ofNat_halves (b : UInt8) : UInt8.ofNat (16 * (b.toNat / 16) + b.toNat % 16) = b := by
  rw [Nat.div_add_mod]
  exact UInt8.ofNat_toNat

theorem decode?_encode (bytes : List UInt8) : decode? (encode bytes) = some bytes := by
  have values : ∀ n < 16, digitValue? (digit n) = some n ∧ digit n ≠ '+' := by decide
  induction bytes with
  | nil => rfl
  | cons b bytes ih =>
    have small : b.toNat < 256 := b.toNat_lt
    obtain ⟨high, plus⟩ := values (b.toNat / 16) (by omega)
    obtain ⟨low, -⟩ := values (b.toNat % 16) (by omega)
    have pair : pair? (digit (b.toNat / 16)) (digit (b.toNat % 16)) = some b := by
      rw [pair?, if_neg plus, high, low]
      exact congrArg some (ofNat_halves b)
    rw [encode, decode?, pair, ih]
    rfl

end Encoding

section Values

theorem toNat_of_digitValue? {n : Nat} (h : digitValue? c = some n) : c.toNat < 128 := by
  have below {d : Char} (le : c ≤ d) (ascii : d.toNat < 128) : c.toNat < 128 :=
    Nat.lt_of_le_of_lt le ascii
  unfold digitValue? at h
  split_ifs at h with decimal small capital
  · exact below decimal.2 (by decide)
  · exact below small.2 (by decide)
  · exact below capital.2 (by decide)

theorem toNat_of_toLower (h : c.toLower.toNat < 128) : c.toNat < 128 := by
  by_contra other
  have same : c.toLower = c := by
    unfold Char.toLower
    rw [dif_neg]
    rintro ⟨-, upper⟩
    exact other (Nat.lt_of_le_of_lt upper (by decide))
  rw [same] at h
  exact other h

theorem digitValue?_eq_some_iff {n : Nat} :
    digitValue? c = some n ↔ n < 16 ∧ digit n = c.toLower := by
  have values : ∀ m < 128, ∀ n ∈ digitValue? (Char.ofNat m),
      n < 16 ∧ digit n = (Char.ofNat m).toLower := by decide +kernel
  have digits : ∀ m < 128, ∀ n < 16, digit n = (Char.ofNat m).toLower →
      digitValue? (Char.ofNat m) = some n := by decide +kernel
  have ascii : ∀ n < 16, (digit n).toNat < 128 := by decide
  constructor
  · intro read
    have known := values c.toNat (toNat_of_digitValue? read) n
    rw [Char.ofNat_toNat] at known
    exact known read
  · rintro ⟨small, same⟩
    have known := digits c.toNat (toNat_of_toLower (same ▸ ascii n small)) n small
    rw [Char.ofNat_toNat] at known
    exact known same

theorem digits_iff_encode : Digits s bytes ↔ encode bytes = s.map Char.toLower := by
  constructor
  · intro digits
    induction digits with
    | nil => rfl
    | @cons a b high low s bytes first second rest ih =>
      obtain ⟨smallHigh, high'⟩ := digitValue?_eq_some_iff.mp first
      obtain ⟨smallLow, low'⟩ := digitValue?_eq_some_iff.mp second
      have byte : (UInt8.ofNat (16 * high + low)).toNat = 16 * high + low :=
        UInt8.toNat_ofNat_of_lt' (by change _ < 256; omega)
      have left : (16 * high + low) / 16 = high := by omega
      have right : (16 * high + low) % 16 = low := by omega
      rw [encode, byte, left, right, high', low', ih]
      rfl
  · intro same
    induction bytes generalizing s with
    | nil =>
      obtain rfl := List.map_eq_nil_iff.mp same.symm
      exact .nil
    | cons byte bytes ih =>
      have small : byte.toNat < 256 := byte.toNat_lt
      obtain ⟨a, s, rfl, high, same⟩ := List.map_eq_cons_iff.mp same.symm
      obtain ⟨b, s, rfl, low, same⟩ := List.map_eq_cons_iff.mp same
      have digits := Digits.cons (digitValue?_eq_some_iff.mpr ⟨by omega, high.symm⟩)
        (digitValue?_eq_some_iff.mpr ⟨by omega, low.symm⟩) (ih same.symm)
      rwa [ofNat_halves] at digits

theorem exists_digits_iff : (∃ bytes, Digits s bytes) ↔ Paired s := by
  constructor
  · rintro ⟨bytes, digits⟩
    induction digits with
    | nil => exact ⟨.zero, nofun⟩
    | @cons a b high low s bytes first second rest ih =>
      obtain ⟨even, digits⟩ := ih
      refine ⟨by simpa [Nat.even_add_one] using even, ?_⟩
      simp only [List.forall_mem_cons, first, second, Option.isSome_some, true_and]
      exact digits
  · intro paired
    induction s using decode?.induct with
    | case1 => exact ⟨[], .nil⟩
    | case2 a => exact absurd paired.1 Nat.not_even_one
    | case3 a b s ih =>
      obtain ⟨even, digits⟩ := paired
      obtain ⟨first, second, digits⟩ := by simpa only [List.forall_mem_cons] using digits
      obtain ⟨high, first⟩ := Option.isSome_iff_exists.mp first
      obtain ⟨low, second⟩ := Option.isSome_iff_exists.mp second
      have even : Even s.length := by simpa [Nat.even_add_one] using even
      obtain ⟨bytes, rest⟩ := ih ⟨even, digits⟩
      exact ⟨_, .cons first second rest⟩

end Values

section Decoding

theorem pair?_eq_some_iff {byte : UInt8} :
    pair? a b = some byte ↔
      ∃ high low, digitValue? (if a = '+' then '0' else a) = some high ∧
        digitValue? b = some low ∧ UInt8.ofNat (16 * high + low) = byte := by
  have zero : digitValue? '0' = some 0 := rfl
  by_cases plus : a = '+'
  · simp [pair?, plus, zero]
  · simp [pair?, plus, Option.bind_eq_some_iff]

theorem decode?_eq_some_iff_plusAsZero : decode? s = some bytes ↔ Digits (plusAsZero s) bytes := by
  induction s using decode?.induct generalizing bytes with
  | case1 =>
    constructor
    · intro none
      obtain rfl := Option.some.inj none
      exact .nil
    · rintro ⟨⟩
      rfl
  | case2 a => exact ⟨nofun, nofun⟩
  | case3 a b s ih =>
    simp only [decode?, Option.bind_eq_bind, Option.bind_eq_some_iff, pair?_eq_some_iff, ih,
      Option.some.injEq]
    constructor
    · rintro ⟨_, ⟨high, low, first, second, rfl⟩, rest, digits, rfl⟩
      exact .cons first second digits
    · rintro (_ | ⟨first, second, digits⟩)
      exact ⟨_, ⟨_, _, first, second, rfl⟩, _, digits, rfl⟩

theorem plusAsZero_of_plain (plain : '+' ∉ s) : plusAsZero s = s := by
  induction s using decode?.induct with
  | case1 => rfl
  | case2 a => rfl
  | case3 a b s ih =>
    simp only [List.mem_cons, not_or] at plain
    rw [plusAsZero, if_neg (Ne.symm plain.1), ih plain.2.2]

theorem decode?_eq_some_iff (plain : '+' ∉ s) : decode? s = some bytes ↔ Digits s bytes := by
  rw [decode?_eq_some_iff_plusAsZero, plusAsZero_of_plain plain]

theorem decode?_eq_none_iff : decode? s = none ↔ ¬ Paired (plusAsZero s) := by
  rw [← exists_digits_iff, not_exists, Option.eq_none_iff_forall_ne_some]
  simp only [ne_eq, decode?_eq_some_iff_plusAsZero]

end Decoding

end Cql.Hex
