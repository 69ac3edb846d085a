import Cql.Proofs.Hex
import Cql.Proofs.Literal.Text

namespace Cql

namespace Ty

/-- A text without blanks and delimiters is taken or refused as its only token is. -/
theorem parseLiteral_of_bare {k : Scalar} {input : String} (bare : Token.Bare input.toList)
    (letter : ∀ c ∈ input.toList.head?, c.toLower ≠ 'n') :
    (scalar k).parseLiteral input = Token.toValue k ⟨input, false⟩ := by
  have word := Literal.null?_of_starts (Value.starts_of_bare bare letter) []
  have token := Token.reads_bare bare [] (by simp)
  rw [List.append_nil] at word token
  rw [String.ofList_toList] at token
  have read : Literal.reader input (scalar k) input.toList =
      Literal.made (Token.toValue k ⟨input, false⟩) [] := by
    simp only [Literal.reader, word, token, bind, Except.bind]
  unfold parseLiteral Reader.whole
  rw [read]
  cases Token.toValue k ⟨input, false⟩ <;> rfl

end Ty

namespace Literal

def Unbroken (s : List Char) : Prop :=
  ∀ c ∈ s, Token.isDelimiter c = false ∧ isBlank c = false

instance (s : List Char) : Decidable (Unbroken s) := List.decidableBAll _ s

variable {hex : String}

theorem toList_hex (hex : String) : ("0x" ++ hex).toList = '0' :: 'x' :: hex.toList := by simp

theorem toBlob_hex (hex : String) :
    Token.toBlob ⟨"0x" ++ hex, false⟩ =
      match Hex.decode? hex.toList with
      | some bytes => .ok (.blob bytes)
      | none => .error (.notBlob hex) := by
  unfold Token.toBlob
  simp only [toList_hex, String.ofList_toList]
  rfl

theorem bare_of_unbroken (unbroken : Unbroken hex.toList) :
    Token.Bare ("0x" ++ hex).toList := by
  rw [toList_hex]
  refine ⟨List.cons_ne_nil _ _, ?_, ?_, by simp⟩
  · simp only [List.forall_mem_cons]
    exact ⟨rfl, rfl, fun c h => (unbroken c h).2⟩
  · simp only [List.forall_mem_cons]
    exact ⟨rfl, rfl, fun c h => (unbroken c h).1⟩

theorem parseLiteral_hex (hex : String) (unbroken : Unbroken hex.toList) :
    (Ty.scalar .blob).parseLiteral ("0x" ++ hex) =
      match Hex.decode? hex.toList with
      | some bytes => .ok (.blob bytes)
      | none => .error (.notBlob hex) := by
  rw [Ty.parseLiteral_of_bare (bare_of_unbroken unbroken) (by simp)]
  exact toBlob_hex hex

/-- Digits are read as the bytes they make up, in either case, if there is an even number of them
and nothing else; else the text is refused as malformed. -/
structure SpellsBlob (digits : List Char) (read : Except Fault Value) : Prop where
  bytes : Hex.Paired digits →
    ∃ bytes, read = .ok (.blob bytes) ∧ Hex.encode bytes = digits.map Char.toLower
  refused : ¬ Hex.Paired digits → ∃ fault, read = .error fault ∧ fault.category = .format

/-- A text is read with a zero in place of each plus sign that is the first of a pair. -/
theorem spellsBlob_plusAsZero (hex : String) (unbroken : Unbroken hex.toList) :
    SpellsBlob (Hex.plusAsZero hex.toList) ((Ty.scalar .blob).parseLiteral ("0x" ++ hex)) := by
  rw [parseLiteral_hex hex unbroken]
  constructor
  · intro paired
    obtain ⟨bytes, digits⟩ := Hex.exists_digits_iff.mpr paired
    rw [Hex.decode?_eq_some_iff_plusAsZero.mpr digits]
    exact ⟨bytes, rfl, Hex.digits_iff_encode.mp digits⟩
  · intro other
    rw [Hex.decode?_eq_none_iff.mpr other]
    exact ⟨_, rfl, rfl⟩

/-- What stands behind `0x` is read with a zero in place of each plus sign that is the first of a
pair. So it is read exactly, unless it holds a plus sign and is read as bytes all the same. -/
theorem spellsBlob_iff (hex : String) (unbroken : Unbroken hex.toList) :
    let read := (Ty.scalar .blob).parseLiteral ("0x" ++ hex)
    let digits := Hex.plusAsZero hex.toList
    SpellsBlob digits read ∧
      (SpellsBlob hex.toList read ↔ ¬ ('+' ∈ hex.toList ∧ Hex.Paired digits)) := by
  intro read digits
  have spells : SpellsBlob digits read := spellsBlob_plusAsZero hex unbroken
  refine ⟨spells, ?_⟩
  by_cases plus : '+' ∈ hex.toList
  · have other : ¬ Hex.Paired hex.toList := fun paired => absurd (paired.2 '+' plus) (by decide)
    constructor
    · rintro precise ⟨-, paired⟩
      obtain ⟨bytes, taken, -⟩ := spells.bytes paired
      obtain ⟨fault, refused, -⟩ := precise.refused other
      rw [taken] at refused
      contradiction
    · intro refused
      have bad : ¬ Hex.Paired digits := fun paired => refused ⟨plus, paired⟩
      exact ⟨fun paired => absurd paired other, fun _ => spells.refused bad⟩
  · have same : digits = hex.toList := Hex.plusAsZero_of_plain plus
    have precise : SpellsBlob hex.toList read := same ▸ spells
    exact ⟨fun _ found => plus found.1, fun _ => precise⟩

theorem spellsBlob_iff_pairs :
    let read (hex : String) := (Ty.scalar .blob).parseLiteral ("0x" ++ hex)
    (∃ bytes, read "CAfe" = .ok (.blob bytes) ∧ Hex.encode bytes = "cafe".toList) ∧
      (∃ bytes, read "+F" = .ok (.blob bytes) ∧ Hex.encode bytes = "0f".toList) ∧
      (∃ fault, read "cafe0" = .error fault ∧ fault.category = .format) ∧
      ∃ fault, read "F+" = .error fault ∧ fault.category = .format := by
  intro read
  exact ⟨(spellsBlob_iff "CAfe" (by decide)).1.bytes (by decide),
    (spellsBlob_iff "+F" (by decide)).1.bytes (by decide),
    (spellsBlob_iff "cafe0" (by decide)).1.refused (by decide),
    (spellsBlob_iff "F+" (by decide)).1.refused (by decide)⟩

/-- A sign and a digit that are read as a byte. -/
theorem spellsBlob_sign :
    let read (hex : String) := (Ty.scalar .blob).parseLiteral ("0x" ++ hex)
    ¬ Hex.Paired "+f".toList ∧ read "+f" = .ok (.blob [15]) ∧
      ¬ ∀ hex : String, Unbroken hex.toList → SpellsBlob hex.toList (read hex) := by
  intro read
  have other : ¬ Hex.Paired "+f".toList := by decide
  have taken : read "+f" = .ok (.blob [15]) := (parseLiteral_hex "+f" (by decide)).trans rfl
  refine ⟨other, taken, fun always => ?_⟩
  obtain ⟨fault, refused, -⟩ := (always "+f" (by decide)).refused other
  rw [taken] at refused
  contradiction

end Literal

end Cql
