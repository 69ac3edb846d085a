import Cql.Proofs.Numeral

/-!
Texts as integers of a width, and how texts are refused. A text is held against its width only after
it has been read within wider bounds, and the digits at its start leave these before anything behind
them is looked at. So an integer is read exactly or refused as out of range, however long it is; but
a malformed text is refused as such only unless its digits alone are too many.
-/

namespace Cql.Fixed

variable {w : Width} {s : String}

def Readable (n : Int) : Prop := -readingBound ≤ n ∧ n < readingBound

instance (n : Int) : Decidable (Readable n) := instDecidableAnd

theorem ofText_eq (w : Width) (s : String) :
    ofText w s =
      if Readable (Numeral.leading s) then
        if Numeral.WellFormed s then checked (.outOfRange w s) (Numeral.leading s)
        else .error (.notInteger s)
      else .error (.outOfRange w s) := by
  have read : Numeral.read (-readingBound) (readingBound - 1) s = _ :=
    Numeral.read_eq (by decide) (by decide) s
  unfold ofText
  rw [read]
  by_cases inside : Readable (Numeral.leading s)
  · have lower := inside.1
    have upper := inside.2
    rw [if_neg (by omega), if_neg (by omega), if_pos inside]
    by_cases wellFormed : Numeral.WellFormed s
    · rw [if_pos wellFormed, if_pos wellFormed]
    · rw [if_neg wellFormed, if_neg wellFormed]
      split_ifs <;> rfl
  · rw [if_neg inside]
    by_cases below : Numeral.leading s < -readingBound
    · rw [if_pos below]
    · have above : readingBound - 1 < Numeral.leading s := by
        by_contra within
        exact inside ⟨by omega, by omega⟩
      rw [if_neg below, if_pos above]

theorem readable_of_bounds {n : Int} (lower : w.lo ≤ n) (upper : n ≤ w.hi) : Readable n := by
  have bounds := reading_bounds w
  exact ⟨by omega, by omega⟩

/-- An integer, with or without a sign and with any number of zeros in front, is read as the integer
that it denotes if that lies within the width; else it is refused as out of range, even if it is too
long to be read at all. The text of every integer of the width is read back. -/
theorem ofText_denoted (w : Width) :
    (∀ s n, Numeral.Denotes s n →
      (w.lo ≤ n ∧ n ≤ w.hi → ∃ a : Fixed w, ofText w s = .ok a ∧ a.val = n) ∧
      (n < w.lo ∨ w.hi < n → ofText w s = .error (.outOfRange w s) ∧
        (Fault.outOfRange w s).category = .range)) ∧
      ∀ a : Fixed w, ofText w a.text = .ok a := by
  refine ⟨fun s n denotes => ?_, ofText_text⟩
  obtain ⟨wellFormed, rfl⟩ := Numeral.denotes_iff.mp denotes
  rw [ofText_eq, if_pos wellFormed]
  constructor
  · rintro ⟨lower, upper⟩
    rw [if_pos (readable_of_bounds lower upper)]
    exact ⟨⟨_, lower, upper⟩, checked_eq_ok_iff.mpr rfl, rfl⟩
  · intro beyond
    have refused : checked (w := w) (.outOfRange w s) (Numeral.leading s) =
        .error (.outOfRange w s) := checked_eq_error_iff.mpr ⟨rfl, beyond⟩
    rw [refused, ite_self]
    exact ⟨rfl, rfl⟩

theorem ofText_denoted_tinyint :
    let long := "-170141183460469231731687303715884105729"
    (∃ a : Fixed .tinyint, ofText .tinyint "+0000000127" = .ok a ∧ a.val = 127) ∧
      (∃ a : Fixed .tinyint, ofText .tinyint "-128" = .ok a ∧ a.val = -128) ∧
      ofText .tinyint "-0129" = .error (.outOfRange .tinyint "-0129") ∧
      ofText .tinyint long = .error (.outOfRange .tinyint long) := by
  intro long
  have read := (ofText_denoted .tinyint).1
  exact ⟨(read "+0000000127" 127 (by decide)).1 (by decide),
    (read "-128" (-128) (by decide)).1 (by decide),
    ((read "-0129" (-129) (by decide)).2 (by decide)).1,
    ((read long (-170141183460469231731687303715884105729) (by decide)).2 (by decide)).1⟩

/-- A text that is not an optional sign and digits is always refused. It is refused as malformed
exactly if the number that the digits at its start denote can be read, whatever the width is; else
it is refused as out of range, though it is no integer. -/
theorem ofText_malformed (w : Width) (malformed : ¬ Numeral.WellFormed s) :
    ∃ fault, ofText w s = .error fault ∧
      (fault = .notInteger s ∧ fault.category = .format ∧ Readable (Numeral.leading s) ∨
        fault = .outOfRange w s ∧ fault.category = .range ∧ ¬ Readable (Numeral.leading s)) := by
  rw [ofText_eq]
  by_cases inside : Readable (Numeral.leading s)
  · rw [if_pos inside, if_neg malformed]
    exact ⟨_, rfl, .inl ⟨rfl, rfl, inside⟩⟩
  · rw [if_neg inside]
    exact ⟨_, rfl, .inr ⟨rfl, rfl, inside⟩⟩

/-- Digits that do not stop in time: the first two texts are no integers as much as the third, in
which there is one digit less, but only the third is refused as malformed. -/
theorem ofText_malformed_digits :
    let long := "+170141183460469231731687303715884105728a"
    let negative := "-170141183460469231731687303715884105729 "
    let short := "99999999999999999999999999999999999999a"
    (∃ fault, ofText .bigint long = .error fault ∧ fault.category = .range) ∧
      (∃ fault, ofText .bigint negative = .error fault ∧ fault.category = .range) ∧
      ∃ fault, ofText .bigint short = .error fault ∧ fault.category = .format := by
  intro long negative short
  have refused (s : String) (malformed : ¬ Numeral.WellFormed s)
      (outside : ¬ Readable (Numeral.leading s)) :
      ∃ fault, ofText .bigint s = .error fault ∧ fault.category = .range := by
    obtain ⟨fault, refused, ⟨-, -, inside⟩ | ⟨-, range, -⟩⟩ := ofText_malformed .bigint malformed
    · exact absurd inside outside
    · exact ⟨fault, refused, range⟩
  refine ⟨refused long (by decide) (by decide), refused negative (by decide) (by decide), ?_⟩
  obtain ⟨fault, refused, ⟨-, format, -⟩ | ⟨-, -, outside⟩⟩ :=
    ofText_malformed (s := short) .bigint (by decide)
  · exact ⟨fault, refused, format⟩
  · exact absurd (by decide) outside

/-- A text that is no integer and is refused as out of range. -/
theorem ofText_malformed_range :
    let s := "170141183460469231731687303715884105728a"
    ¬ Numeral.WellFormed s ∧ ofText .bigint s = .error (.outOfRange .bigint s) ∧
      ¬ ∀ (w : Width) (s : String), ¬ Numeral.WellFormed s →
        ∃ fault, ofText w s = .error fault ∧ fault.category = .format := by
  intro s
  have malformed : ¬ Numeral.WellFormed s := by decide
  have refused : ofText .bigint s = .error (.outOfRange .bigint s) := by
    rw [ofText_eq, if_neg (by decide)]
  refine ⟨malformed, refused, fun always => ?_⟩
  obtain ⟨fault, same, format⟩ := always .bigint s malformed
  rw [refused] at same
  obtain rfl := Except.error.inj same
  contradiction

end Cql.Fixed
