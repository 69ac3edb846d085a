import Cql.Proofs.Hex
import Cql.Proofs.Phrase
import Cql.Validator

namespace Cql

theorem fromUTF8?_eq_some_iff {bytes : ByteArray} {s : String} :
    String.fromUTF8? bytes = some s ↔ s.toUTF8 = bytes := by
  unfold String.fromUTF8?
  split
  · constructor
    · intro valid
      obtain rfl := Option.some.inj valid
      rfl
    · rintro rfl
      rfl
  · rename_i invalid
    constructor
    · nofun
    · rintro rfl
      exact absurd s.isValidUTF8 invalid

namespace Validator

open Phrase (Mark Sound Complete Continues)

def Token : Phrase String := fun s word =>
  ∃ blanks, Blank blanks ∧ word.toList ≠ [] ∧ (∀ c ∈ word.toList, isWordChar c) ∧
    s = blanks ++ word.toList

def ClassWord : Phrase String := fun s name => Token s name ∨ Token s (package ++ name)

def HexWord : Phrase String := fun s name =>
  ∃ digits, Token s digits ∧ Hex.Digits digits.toList name.toUTF8.data.toList

variable {s rest : List Char} {name word : String}

section Ends

theorem isBlank_of_isWordChar {c : Char} (h : isWordChar c) : isBlank c = false := by
  simp only [isWordChar, Bool.or_eq_true, beq_iff_eq] at h
  rcases h with ((h | rfl) | rfl) | rfl
  · exact isBlank_of_isAlphanumeric (isAlphanumeric_of_isAlphanum h)
  · rfl
  · rfl
  · rfl

def Ends (rest : List Char) : Prop := ∀ c ∈ rest.head?, isWordChar c = false

theorem ends_of_trimStart (ends : ∀ c ∈ (trimStart rest).head?, isWordChar c = false) :
    Ends rest := by
  apply head_of_trimStart _ ends
  intro c blank
  by_contra part
  rw [isBlank_of_isWordChar (by simpa using part)] at blank
  contradiction

theorem ends_mark {c : Char} {m : List Char} (solid : isBlank c = false)
    (part : isWordChar c = false) (mark : Mark c m) : Ends (m ++ rest) := by
  apply ends_of_trimStart
  simp [Phrase.trimStart_mark solid mark, part]

theorem ends_of_continues (continues : Continues ')' rest) : Ends rest := by
  apply ends_of_trimStart
  intro c first
  rcases continues c first with rfl | rfl <;> rfl

end Ends

section Token

theorem parts_of_token (token : Token s word) : ∀ c ∈ word.toList, isWordChar c := by
  obtain ⟨-, -, -, parts, -⟩ := token
  exact parts

theorem length_pos_of_token (token : Token s word) : 0 < s.length := by
  obtain ⟨blanks, -, nonempty, -, rfl⟩ := token
  have := List.length_pos_of_ne_nil nonempty
  rw [List.length_append]
  omega

theorem sound_wordReader : Sound Token wordReader := by
  intro s word rest h
  obtain ⟨blanks, blank, split⟩ := exists_blank_append_trimStart s
  unfold wordReader at h
  dsimp only at h
  split at h
  · contradiction
  · rename_i nonempty
    obtain ⟨rfl, rfl⟩ := by simpa using h
    refine ⟨blanks ++ (trimStart s).takeWhile isWordChar, ?_, blanks, blank, ?_⟩
    · rw [List.append_assoc, List.takeWhile_append_dropWhile, ← split]
    · rw [String.toList_ofList]
      exact ⟨by simpa using nonempty, fun c part => List.mem_takeWhile_imp part, rfl⟩

theorem wordReader_of_token (token : Token s word) (ends : Ends rest) :
    wordReader (s ++ rest) = .ok (word, rest) := by
  obtain ⟨blanks, blank, nonempty, parts, rfl⟩ := token
  obtain ⟨c, t, text⟩ := List.exists_cons_of_ne_nil nonempty
  have first : isWordChar c := parts c (by rw [text]; exact List.mem_cons_self)
  have trimmed : trimStart (word.toList ++ rest) = word.toList ++ rest := by
    rw [text, List.cons_append]
    exact trimStart_cons (isBlank_of_isWordChar first)
  have run := takeWhile_run parts ends
  have left := dropWhile_run parts ends
  unfold wordReader
  rw [List.append_assoc, trimStart_blank_append blank, trimmed]
  simp [run, left, nonempty]

end Token

section Class

theorem stripPackage_package (name : String) : stripPackage (package ++ name) = name := by
  have split : package.toList.isPrefixOf? (package ++ name).toList = some name.toList :=
    List.isPrefixOf?_eq_some_iff_append_eq.mpr String.toList_append.symm
  unfold stripPackage
  simp only [split, String.ofList_toList]

theorem eq_or_eq_of_stripPackage (name : String) :
    name = stripPackage name ∨ name = package ++ stripPackage name := by
  unfold stripPackage
  split
  · rename_i rest split
    right
    apply String.toList_injective
    rw [String.toList_append, String.toList_ofList]
    exact (List.isPrefixOf?_eq_some_iff_append_eq.mp split).symm
  · exact .inl rfl

theorem length_pos_of_classWord (word : ClassWord s name) : 0 < s.length :=
  word.elim length_pos_of_token length_pos_of_token

theorem sound_classReader : Sound ClassWord classReader := by
  intro s name rest h
  unfold classReader at h
  obtain ⟨⟨word, r⟩, first, done⟩ := bind_eq_ok_iff.mp h
  obtain ⟨rfl, rfl⟩ : stripPackage word = name ∧ r = rest := by
    simpa [pure, Except.pure] using done
  obtain ⟨u, rfl, token⟩ := sound_wordReader first
  refine ⟨u, rfl, ?_⟩
  rcases eq_or_eq_of_stripPackage word with same | same
  · exact .inl (same ▸ token)
  · exact .inr (same ▸ token)

theorem classReader_of_word (written : ClassWord s name) (bare : stripPackage name = name)
    (ends : Ends rest) : classReader (s ++ rest) = .ok (name, rest) := by
  unfold classReader
  rcases written with token | token
  · simp only [wordReader_of_token token ends, bare, bind, Except.bind, pure, Except.pure]
  · simp only [wordReader_of_token token ends, stripPackage_package, bind, Except.bind, pure,
      Except.pure]

end Class

section HexName

theorem decodeName?_eq_some_iff {digits : String} (parts : ∀ c ∈ digits.toList, isWordChar c) :
    decodeName? digits = some name ↔ Hex.Digits digits.toList name.toUTF8.data.toList := by
  have plain : '+' ∉ digits.toList := fun sign => absurd (parts '+' sign) (by decide)
  unfold decodeName?
  simp only [Option.bind_eq_some_iff, Hex.decode?_eq_some_iff plain, fromUTF8?_eq_some_iff]
  constructor
  · rintro ⟨bytes, written, same⟩
    rw [same]
    exact written
  · intro written
    exact ⟨_, written, rfl⟩

theorem sound_hexNameReader : Sound HexWord hexNameReader := by
  intro s name rest h
  unfold hexNameReader at h
  obtain ⟨⟨digits, r⟩, first, left⟩ := bind_eq_ok_iff.mp h
  obtain ⟨u, rfl, token⟩ := sound_wordReader first
  dsimp only at left
  split at left
  · rename_i decoded
    obtain ⟨rfl, rfl⟩ : _ = name ∧ r = rest := by simpa [pure, Except.pure] using left
    exact ⟨u, rfl, digits, token, (decodeName?_eq_some_iff (parts_of_token token)).mp decoded⟩
  · contradiction

theorem hexNameReader_of_word (written : HexWord s name) (ends : Ends rest) :
    hexNameReader (s ++ rest) = .ok (name, rest) := by
  obtain ⟨digits, token, same⟩ := written
  have decoded := (decodeName?_eq_some_iff (parts_of_token token)).mpr same
  unfold hexNameReader
  simp only [wordReader_of_token token ends, decoded, bind, Except.bind, pure, Except.pure]

end HexName

end Validator

end Cql
