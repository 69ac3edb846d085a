import Cql.Proofs.Literal.Token
import Cql.Value.Text

namespace Cql

namespace Value

def Starts (s : List Char) : Prop :=
  ∃ c t, s = c :: t ∧ isBlank c = false ∧ Token.isDelimiter c = false ∧
    (c.toLower ≠ 'n' ∨ t.head? = some 'a')

theorem starts_cons {c : Char} (s : List Char) (solid : isBlank c = false)
    (plain : Token.isDelimiter c = false) (letter : c.toLower ≠ 'n') : Starts (c :: s) :=
  ⟨c, s, rfl, solid, plain, .inl letter⟩

theorem starts_of_bare {s : List Char} (bare : Token.Bare s)
    (letter : ∀ c ∈ s.head?, c.toLower ≠ 'n') : Starts s := by
  obtain ⟨c, t, rfl⟩ := List.exists_cons_of_ne_nil bare.nonempty
  exact starts_cons t (bare.solid c List.mem_cons_self) (bare.plain c List.mem_cons_self)
    (letter c rfl)

theorem letter_of_isDigit {c : Char} (digit : c.isDigit) : c.toLower ≠ 'n' := by
  rw [Double.toLower_of_isDigit digit]
  rintro rfl
  contradiction

theorem starts_toString (n : Int) : Starts (toString n).toList := by
  apply starts_of_bare (Token.bare_toString n)
  intro c h
  rcases Token.mem_toString (List.mem_of_mem_head? h) with rfl | digit
  · decide
  · exact letter_of_isDigit digit

theorem starts_double (d : Double) : Starts d.text.toList := by
  have bare := Token.bare_text d
  cases number : d.isNaN
  · apply starts_of_bare bare
    intro c h
    obtain ⟨d', s, first, digit⟩ := Decimal.exists_positional_eq (d.shortest .away)
    rw [Double.text_of_number number, first] at h
    split at h
    · obtain rfl := Option.some.inj h
      decide
    · split at h
      · obtain rfl := Option.some.inj h
        decide
      · obtain rfl := Option.some.inj h
        exact letter_of_isDigit digit
  · rw [Double.text_of_isNaN number]
    exact ⟨'N', ['a', 'N'], rfl, rfl, rfl, .inr rfl⟩

section Composites

theorem texts_eq_map (xs : List Value) : texts xs = xs.map toText := by
  induction xs with
  | nil => rfl
  | cons x xs ih => rw [texts, ih, List.map_cons]

theorem entryTexts_eq_map (es : List (Value × Value)) :
    entryTexts es = es.map fun e => e.1.toText ++ ": " ++ e.2.toText := by
  induction es with
  | nil => rfl
  | cons e es ih => rw [entryTexts, ih, List.map_cons]

theorem slotTexts_eq_map (fields : List (String × Ty)) (xs : List Value) :
    slotTexts fields xs = (fields.zip xs).map fun s => s.1.1 ++ ": " ++ s.2.toText := by
  induction fields generalizing xs with
  | nil => cases xs <;> rfl
  | cons f fields ih =>
    cases xs with
    | nil => rfl
    | cons x xs => rw [slotTexts, ih, List.zip_cons_cons, List.map_cons]

theorem toList_list (t : Ty) (xs : List Value) :
    (list t xs).toText.toList =
      '[' :: ([',', ' '].intercalate (xs.map fun x => x.toText.toList) ++ [']']) := by
  rw [toText, texts_eq_map, toList_enclosed]

theorem toList_set (t : Ty) (xs : List Value) :
    (set t xs).toText.toList =
      '{' :: ([',', ' '].intercalate (xs.map fun x => x.toText.toList) ++ ['}']) := by
  rw [toText, texts_eq_map, toList_enclosed]

theorem toList_map (k v : Ty) (es : List (Value × Value)) :
    (map k v es).toText.toList =
      '{' :: ([',', ' '].intercalate
        (es.map fun e => e.1.toText.toList ++ ':' :: ' ' :: e.2.toText.toList) ++ ['}']) := by
  rw [toText, entryTexts_eq_map, toList_enclosed]
  simp

theorem toList_tuple (ts : List Ty) (xs : List Value) :
    (tuple ts xs).toText.toList =
      '(' :: ([',', ' '].intercalate (xs.map fun x => x.toText.toList) ++ [')']) := by
  rw [toText, texts_eq_map, toList_enclosed]

theorem toList_user (u : UserType) (xs : List Value) :
    (user u xs).toText.toList =
      '{' :: ([',', ' '].intercalate ((u.fields.zip xs).map fun s =>
        s.1.1.toList ++ ':' :: ' ' :: s.2.toText.toList) ++ ['}']) := by
  rw [toText, slotTexts_eq_map, toList_enclosed]
  simp

theorem toList_blob (bytes : List UInt8) :
    (blob bytes).toText.toList = '0' :: 'x' :: Hex.encode bytes := by
  simp [toText, Hex.text]

end Composites

theorem starts_toText {v : Value} (present : v.isNull = false) (other : v.kind ≠ .type) :
    Starts v.toText.toList := by
  cases v with
  | null => contradiction
  | bool b => cases b <;> exact starts_cons _ rfl rfl (by decide)
  | long n => exact starts_toString n.val
  | double d => exact starts_double d
  | text s =>
    rw [toText, toList_quoteText]
    exact starts_cons _ rfl rfl (by decide)
  | blob bytes => exact toList_blob bytes ▸ starts_cons _ rfl rfl (by decide)
  | fixed w n => exact starts_toString n.val
  | type t => contradiction
  | list t xs => exact toList_list t xs ▸ starts_cons _ rfl rfl (by decide)
  | set t xs => exact toList_set t xs ▸ starts_cons _ rfl rfl (by decide)
  | map k v es => exact toList_map k v es ▸ starts_cons _ rfl rfl (by decide)
  | tuple ts xs => exact toList_tuple ts xs ▸ starts_cons _ rfl rfl (by decide)
  | user u xs => exact toList_user u xs ▸ starts_cons _ rfl rfl (by decide)

end Value

namespace Literal

theorem null?_of_starts {s : List Char} (starts : Value.Starts s) (rest : List Char) :
    null? (s ++ rest) = none := by
  obtain ⟨c, t, rfl, solid, -, letter⟩ := starts
  unfold null?
  rw [List.cons_append, trimStart_cons solid]
  split
  · rename_i n u l l' left same
    obtain ⟨rfl, behind⟩ := List.cons.inj same
    rw [if_neg]
    intro word
    rcases letter with letter | letter
    · exact letter (List.cons.inj word).1
    · cases t with
      | nil => contradiction
      | cons d t =>
        obtain rfl := Option.some.inj letter
        obtain rfl : 'a' = u := (List.cons.inj behind).1
        exact absurd word (by simp)
  · rfl

theorem null?_null {rest : List Char} (stop : ∀ c ∈ rest.head?, Token.isDelimiter c) :
    null? ("null".toList ++ rest) = some rest := by
  cases rest with
  | nil => rfl
  | cons c rest =>
    have end' : isAlphanumeric c = false ∧ c ≠ '_' := by
      rcases Token.isDelimiter_iff.mp (stop c rfl) with rfl | rfl | rfl | rfl | rfl <;> decide
    change (if (['n', 'u', 'l', 'l'].map Char.toLower = ['n', 'u', 'l', 'l']) then
      (if (isAlphanumeric c || c == '_') = true then none else some (c :: rest)) else none) = _
    rw [if_pos (by decide), if_neg (by simp [end'])]

end Literal

end Cql
