import Cql.Literal
import Cql.Proofs.Double.ReadBack
import Cql.Proofs.Hex
import Cql.Proofs.Typing

namespace Cql

namespace Token

theorem isDelimiter_iff {c : Char} :
    isDelimiter c ↔ c = ',' ∨ c = ':' ∨ c = ')' ∨ c = ']' ∨ c = '}' := by
  simp [isDelimiter, or_assoc]

theorem isDelimiter_of_isAlphanumeric {c : Char} (h : isAlphanumeric c) :
    isDelimiter c = false := by
  by_contra delimiter
  rcases isDelimiter_iff.mp (by simpa using delimiter) with rfl | rfl | rfl | rfl | rfl <;>
    exact absurd h (by decide)

/-- What is read back from a text without quotes: no blanks, none of the characters that end it,
and no quote at its front. -/
structure Bare (s : List Char) : Prop where
  nonempty : s ≠ []
  solid : ∀ c ∈ s, isBlank c = false
  plain : ∀ c ∈ s, isDelimiter c = false
  unquoted : s.head? ≠ some '\''

theorem reads_bare {s : List Char} (bare : Bare s) :
    Reader.Reads isDelimiter reader s ⟨String.ofList s, false⟩ := by
  intro rest stop
  obtain ⟨c, t, rfl⟩ := List.exists_cons_of_ne_nil bare.nonempty
  have first : trimStart (c :: t ++ rest) = c :: t ++ rest :=
    trimStart_cons (bare.solid c List.mem_cons_self)
  have run : (c :: t ++ rest).takeWhile (!isDelimiter ·) = c :: t :=
    takeWhile_run (by simpa using bare.plain) (by simpa using stop)
  have left : (c :: t ++ rest).dropWhile (!isDelimiter ·) = rest :=
    dropWhile_run (by simpa using bare.plain) (by simpa using stop)
  have trimmed : trim (c :: t) = c :: t := trim_of_solid bare.solid
  unfold reader
  rw [first]
  split
  · rename_i same
    exact absurd (congrArg List.head? same) bare.unquoted
  · simp only [run, left, trimmed]
    rfl

theorem reads_quoted (s : List Char) :
    Reader.Reads isDelimiter reader ('\'' :: (doubled '\'' s ++ ['\'']))
      ⟨String.ofList s, true⟩ := by
  intro rest stop
  have apart : rest.head? ≠ some '\'' := fun first => absurd (stop _ first) (by decide)
  have text := Reader.quoted_doubled s apart
  have joined : '\'' :: (doubled '\'' s ++ ['\'']) ++ rest =
      '\'' :: (doubled '\'' s ++ '\'' :: rest) := by simp
  rw [joined]
  unfold reader
  rw [trimStart_cons (by decide)]
  simp only [text, bind, Except.bind]
  rfl

theorem bare_of_parts {s : List Char} (nonempty : s ≠ [])
    (parts : ∀ c ∈ s, c.isAlphanum ∨ c = '-' ∨ c = '.') : Bare s := by
  have alphanumeric {c : Char} (h : c.isAlphanum) : isAlphanumeric c :=
    isAlphanumeric_of_isAlphanum h
  refine ⟨nonempty, ?_, ?_, ?_⟩
  · intro c h
    rcases parts c h with part | rfl | rfl
    · exact isBlank_of_isAlphanumeric (alphanumeric part)
    · rfl
    · rfl
  · intro c h
    rcases parts c h with part | rfl | rfl
    · exact isDelimiter_of_isAlphanumeric (alphanumeric part)
    · rfl
    · rfl
  · intro h
    rcases parts _ (List.mem_of_mem_head? h) with part | same | same
    · exact absurd part (by decide)
    · exact absurd same (by decide)
    · exact absurd same (by decide)

theorem mem_toString {n : Int} {c : Char} (h : c ∈ (toString n).toList) :
    c = '-' ∨ c.isDigit := by
  rw [toList_toString] at h
  rcases List.mem_append.mp h with h | h
  · split at h
    · exact .inl (List.mem_singleton.mp h)
    · exact absurd h List.not_mem_nil
  · exact .inr (isDigit_of_mem h)

theorem bare_toString (n : Int) : Bare (toString n).toList := by
  apply bare_of_parts
  · rw [toList_toString]
    exact fun h => Nat.toDigits_ne_nil (List.append_eq_nil_iff.mp h).2
  · intro c h
    rcases mem_toString h with same | digit
    · exact .inr (.inl same)
    · exact .inl (isAlphanum_of_isDigit digit)

theorem mem_text {d : Double} {c : Char} (h : c ∈ d.text.toList) :
    c.isAlphanum ∨ c = '-' ∨ c = '.' := by
  cases number : d.isNaN
  · rw [Double.text_of_number number] at h
    rcases List.mem_append.mp h with h | h
    · split at h
      · exact .inr (.inl (List.mem_singleton.mp h))
      · exact absurd h List.not_mem_nil
    · split at h
      · exact .inl (List.all_eq_true.mp (rfl : ['i', 'n', 'f'].all Char.isAlphanum) c h)
      · rcases Decimal.mem_positional h with digit | same
        · exact .inl (isAlphanum_of_isDigit digit)
        · exact .inr (.inr same)
  · rw [Double.text_of_isNaN number] at h
    exact .inl (List.all_eq_true.mp (rfl : ['N', 'a', 'N'].all Char.isAlphanum) c h)

theorem text_ne_nil (d : Double) : d.text.toList ≠ [] := by
  cases number : d.isNaN
  · rw [Double.text_of_number number]
    obtain ⟨c, s, first, -⟩ := Decimal.exists_positional_eq (d.shortest .away)
    intro h
    have behind := (List.append_eq_nil_iff.mp h).2
    split at behind
    · contradiction
    · rw [first] at behind
      contradiction
  · rw [Double.text_of_isNaN number]
    simp

theorem bare_text (d : Double) : Bare d.text.toList :=
  bare_of_parts (text_ne_nil d) fun _ h => mem_text h

end Token

end Cql
