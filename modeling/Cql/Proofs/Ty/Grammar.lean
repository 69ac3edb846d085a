import Cql.Proofs.Phrase
import Cql.Proofs.Ty.Reader

/-!
The grammar of types. A type is read from a text exactly if the grammar derives the text with this
type as its meaning, so that no text has two meanings. The grammar says nothing of how names end:
that a name is as long as it can be follows from what may stand behind it.
-/

namespace Cql

namespace Ty

open Phrase (Mark Items Listing Sound Complete Continues)

def BareWord : Phrase String := fun s name =>
  ∃ blanks, Blank blanks ∧ BareName name ∧ s = blanks ++ name.toList

def QuotedWord : Phrase String := fun s name =>
  ∃ blanks, Blank blanks ∧ s = blanks ++ '"' :: (doubled '"' name.toList ++ ['"'])

def Word : Phrase String := fun s name => BareWord s name ∨ QuotedWord s name

inductive FieldPhrase {α : Type} (inner : Phrase α) : Phrase (String × α)
  | field {w c s : List Char} {name : String} {x : α} (word : Word w name) (colon : Mark ':' c)
      (value : inner s x) : FieldPhrase inner (w ++ c ++ s) (name, x)

/-- The texts that denote a type. The keywords and the names of scalars are words in any case;
`word` says what such words look like. -/
inductive Denotes (word : Phrase String) (resolve : Resolver) : Phrase Ty
  | scalar {w : List Char} {name : String} {k : Scalar} (written : word w name)
      (same : sameName name k.name) : Denotes word resolve w (.scalar k)
  | list {w o s c : List Char} {name : String} {t : Ty} (written : word w name)
      (same : sameName name "list") (opening : Mark '<' o) (element : Denotes word resolve s t)
      (closing : Mark '>' c) : Denotes word resolve (w ++ o ++ s ++ c) (.list t)
  | set {w o s c : List Char} {name : String} {t : Ty} (written : word w name)
      (same : sameName name "set") (opening : Mark '<' o) (element : Denotes word resolve s t)
      (closing : Mark '>' c) : Denotes word resolve (w ++ o ++ s ++ c) (.set t)
  | frozen {w o s c : List Char} {name : String} {t : Ty} (written : word w name)
      (same : sameName name "frozen") (opening : Mark '<' o) (element : Denotes word resolve s t)
      (closing : Mark '>' c) : Denotes word resolve (w ++ o ++ s ++ c) t
  | map {w o s m u c : List Char} {name : String} {k v : Ty} (written : word w name)
      (same : sameName name "map") (opening : Mark '<' o) (key : Denotes word resolve s k)
      (comma : Mark ',' m) (value : Denotes word resolve u v) (closing : Mark '>' c) :
      Denotes word resolve (w ++ o ++ s ++ m ++ u ++ c) (.map k v)
  | tuple {w o s : List Char} {name : String} {ts : List Ty} (written : word w name)
      (same : sameName name "tuple") (opening : Mark '<' o)
      (elements : Listing (Denotes word resolve) '>' s ts) :
      Denotes word resolve (w ++ o ++ s) (.tuple ts)
  | anonymous {w o s : List Char} {name : String} {fields : List (String × Ty)}
      (written : word w name) (same : sameName name "userType") (opening : Mark '<' o)
      (parts : Listing (FieldPhrase (Denotes word resolve)) '>' s fields) :
      Denotes word resolve (w ++ o ++ s) (.user none fields)
  | named {w : List Char} {name : String} {t : Ty} (written : Word w name)
      (free : Unreserved name) (found : resolve none name = some t) : Denotes word resolve w t
  | qualified {w p u : List Char} {keyspace name : String} {t : Ty} (outer : Word w keyspace)
      (free : Unreserved keyspace) (point : Mark '.' p) (inner : Word u name)
      (found : resolve (some keyspace) name = some t) : Denotes word resolve (w ++ p ++ u) t

/-- The whole text denotes the type, with nothing but blanks at its end. -/
def Derives (word : Phrase String) (resolve : Resolver) (input : String) (t : Ty) : Prop :=
  ∃ s blanks, Blank blanks ∧ input.toList = s ++ blanks ∧ Denotes word resolve s t

section Words

variable {name : String} {s rest : List Char}

def Apart (rest : List Char) : Prop := ∀ c ∈ rest.head?, isNameChar c = false ∧ c ≠ '"'

theorem apart_of_trimStart
    (apart : ∀ c ∈ (trimStart rest).head?, isNameChar c = false ∧ c ≠ '"') : Apart rest := by
  apply head_of_trimStart _ apart
  intro c blank
  constructor
  · by_contra part
    rw [isBlank_of_isNameChar (by simpa using part)] at blank
    contradiction
  · rintro rfl
    contradiction

theorem apart_mark {c : Char} {m : List Char} (solid : isBlank c = false)
    (part : isNameChar c = false) (quote : c ≠ '"') (mark : Mark c m) : Apart (m ++ rest) := by
  apply apart_of_trimStart
  simp [Phrase.trimStart_mark solid mark, part, quote]

theorem apart_of_continues (continues : Continues '>' rest) : Apart rest := by
  apply apart_of_trimStart
  intro c first
  rcases continues c first with rfl | rfl
  · exact ⟨rfl, by decide⟩
  · exact ⟨rfl, by decide⟩

theorem nameReader_blank {blanks : List Char} (blank : Blank blanks) :
    nameReader (blanks ++ s) = nameReader s := by
  unfold nameReader
  rw [trimStart_blank_append blank]

theorem sound_nameReader : Sound Word nameReader := by
  intro s name rest h
  obtain ⟨blanks, blank, split⟩ := exists_blank_append_trimStart s
  unfold nameReader at h
  split at h
  · rename_i t quoted
    obtain ⟨⟨u, v⟩, within, same⟩ := bind_eq_ok_iff.mp h
    obtain ⟨rfl, rfl⟩ : String.ofList u = name ∧ v = rest := by
      simpa [pure, Except.pure] using same
    obtain ⟨rfl, -⟩ := Reader.quoted_eq_ok_iff.mp within
    rw [quoted] at split
    refine ⟨blanks ++ '"' :: (doubled '"' u ++ ['"']), by simp [split], .inr ⟨blanks, blank, ?_⟩⟩
    rw [String.toList_ofList]
  · split at h
    · contradiction
    · rename_i nonempty
      obtain ⟨rfl, rfl⟩ := by simpa using h
      refine ⟨blanks ++ (trimStart s).takeWhile isNameChar, ?_, .inl ⟨blanks, blank, ?_, ?_⟩⟩
      · rw [List.append_assoc, List.takeWhile_append_dropWhile, ← split]
      · constructor
        · simpa using nonempty
        · intro c part
          exact List.mem_takeWhile_imp (by simpa using part)
      · rw [String.toList_ofList]

theorem nameReader_of_word (word : Word s name) (apart : Apart rest) :
    nameReader (s ++ rest) = .ok (name, rest) := by
  rcases word with ⟨blanks, blank, bare, rfl⟩ | ⟨blanks, blank, rfl⟩
  · rw [List.append_assoc, nameReader_blank blank]
    exact nameReader_of_bare bare fun c first => (apart c first).1
  · rw [List.append_assoc, nameReader_blank blank]
    have solid : isBlank '"' = false := rfl
    unfold nameReader
    rw [List.cons_append, trimStart_cons solid]
    have single : rest.head? ≠ some '"' := fun first => (apart _ first).2 rfl
    simp [Reader.quoted_doubled name.toList single, bind, Except.bind, pure, Except.pure]

theorem exists_head_of_bareWord (word : BareWord s name) :
    ∃ c t, trimStart s = c :: t ∧ isNameChar c := by
  obtain ⟨blanks, blank, ⟨nonempty, parts⟩, rfl⟩ := word
  obtain ⟨c, t, text⟩ := List.exists_cons_of_ne_nil nonempty
  have part : isNameChar c := parts c (by rw [text]; exact List.mem_cons_self)
  refine ⟨c, t, ?_, part⟩
  rw [trimStart_blank_append blank, text]
  exact trimStart_cons (isBlank_of_isNameChar part)

theorem exists_head_of_word (word : Word s name) :
    ∃ c t, trimStart s = c :: t ∧ c ≠ '>' := by
  rcases word with bare | ⟨blanks, blank, rfl⟩
  · obtain ⟨c, t, trimmed, part⟩ := exists_head_of_bareWord bare
    refine ⟨c, t, trimmed, ?_⟩
    rintro rfl
    contradiction
  · refine ⟨'"', doubled '"' name.toList ++ ['"'], ?_, by decide⟩
    rw [trimStart_blank_append blank]
    exact trimStart_cons rfl

theorem length_pos_of_word (word : Word s name) : 0 < s.length := by
  obtain ⟨c, t, trimmed, -⟩ := exists_head_of_word word
  cases s with
  | nil => contradiction
  | cons d s => simp

theorem apart_colon {c : List Char} (mark : Mark ':' c) : Apart (c ++ rest) :=
  apart_mark rfl rfl (by decide) mark

end Words

section Fields

variable {α : Type} {inner : Reader α} {phrase : Phrase α}

theorem sound_fieldReader (sound : Sound phrase inner) :
    Sound (FieldPhrase phrase) (fieldReader inner) := by
  intro s f rest h
  unfold fieldReader at h
  obtain ⟨⟨name, r⟩, first, left⟩ := bind_eq_ok_iff.mp h
  obtain ⟨u, second, left⟩ := bind_eq_ok_iff.mp left
  obtain ⟨⟨x, v⟩, third, same⟩ := bind_eq_ok_iff.mp left
  obtain ⟨rfl, rfl⟩ : (name, x) = f ∧ v = rest := by simpa [pure, Except.pure] using same
  obtain ⟨w, rfl, word⟩ := sound_nameReader first
  obtain ⟨c, rfl, colon⟩ := Phrase.exists_mark_of_expect second
  obtain ⟨t, rfl, value⟩ := sound third
  exact ⟨w ++ c ++ t, by simp, .field word colon value⟩

theorem complete_fieldReader {follows : List Char → Prop} {size : Nat}
    (complete : Complete phrase follows size inner) :
    Complete (FieldPhrase phrase) follows size (fieldReader inner) := by
  intro u f field short rest after
  cases field with
  | @field w c s name x word colon value =>
    rw [List.length_append, List.length_append] at short
    have first : nameReader (w ++ (c ++ (s ++ rest))) = .ok (name, c ++ (s ++ rest)) :=
      nameReader_of_word word (apart_colon colon)
    have second : Reader.expect ':' (c ++ (s ++ rest)) = .ok (s ++ rest) :=
      Phrase.expect_mark rfl colon
    have third : inner (s ++ rest) = .ok (x, rest) := complete value (by omega) after
    rw [List.append_assoc, List.append_assoc]
    simp only [fieldReader, first, second, third, bind, Except.bind, pure, Except.pure]

end Fields

section Steps

variable {resolve : Resolver} {depth : Nat} {name : String} {s r u v rest : List Char} {t : Ty}

def Builder.around? : Builder → Option (Ty → Ty)
  | .list => some .list
  | .set => some .set
  | .frozen => some id
  | .map | .tuple => none

inductive Follows (resolve : Resolver) (depth : Nat) (name : String) :
    List Char → Ty → List Char → Prop
  | around {b : Builder} {wrap : Ty → Ty} {s u v rest : List Char} {t : Ty}
      (known : Builder.ofName? name = some b) (one : b.around? = some wrap)
      (opening : Reader.expect '<' s = .ok u) (element : reader resolve depth u = .ok (t, v))
      (closing : Reader.expect '>' v = .ok rest) : Follows resolve depth name s (wrap t) rest
  | map {s u v x y rest : List Char} {k t : Ty} (known : Builder.ofName? name = some .map)
      (opening : Reader.expect '<' s = .ok u) (key : reader resolve depth u = .ok (k, v))
      (comma : Reader.expect ',' v = .ok x) (value : reader resolve depth x = .ok (t, y))
      (closing : Reader.expect '>' y = .ok rest) : Follows resolve depth name s (.map k t) rest
  | tuple {s u rest : List Char} {ts : List Ty} (known : Builder.ofName? name = some .tuple)
      (opening : Reader.expect '<' s = .ok u)
      (elements : Reader.list (reader resolve depth) '>' u = .ok (ts, rest)) :
      Follows resolve depth name s (.tuple ts) rest
  | anonymous {s u rest : List Char} {fields : List (String × Ty)}
      (unknown : Builder.ofName? name = none) (same : sameName name "userType")
      (opening : Reader.eat? '<' s = some u)
      (parts : Reader.list (fieldReader (reader resolve depth)) '>' u = .ok (fields, rest)) :
      Follows resolve depth name s (.user none fields) rest
  | scalar {s : List Char} {k : Scalar} (unknown : Builder.ofName? name = none)
      (known : Scalar.ofName? name = some k)
      (closed : sameName name "userType" → Reader.eat? '<' s = none) :
      Follows resolve depth name s (.scalar k) s
  | named {s : List Char} {t : Ty} (free : Unreserved name)
      (closed : sameName name "userType" → Reader.eat? '<' s = none)
      (alone : Reader.eat? '.' s = none) (found : resolve none name = some t) :
      Follows resolve depth name s t s
  | qualified {s u rest : List Char} {inner : String} {t : Ty} (free : Unreserved name)
      (closed : sameName name "userType" → Reader.eat? '<' s = none)
      (point : Reader.eat? '.' s = some u) (second : nameReader u = .ok (inner, rest))
      (found : resolve (some name) inner = some t) : Follows resolve depth name s t rest

theorem reader_of_follows (word : nameReader s = .ok (name, r))
    (follows : Follows resolve depth name r t rest) :
    reader resolve (depth + 1) s = .ok (t, rest) := by
  have no_fields (closed : sameName name "userType" → Reader.eat? '<' r = none) :
      (if sameName name "userType" then Reader.eat? '<' r else none) = none := by
    split <;> simp_all
  cases follows with
  | @around b wrap _ _ _ _ _ known one opening element closing =>
    cases b <;> cases one <;>
      simp only [reader, word, known, opening, element, closing, bind, Except.bind, pure,
        Except.pure, id]
  | map known opening key comma value closing =>
    simp only [reader, word, known, opening, key, comma, value, closing, bind, Except.bind, pure,
      Except.pure]
  | tuple known opening elements =>
    simp only [reader, word, known, opening, elements, bind, Except.bind, pure, Except.pure]
  | anonymous unknown same opening parts =>
    simp only [reader, word, unknown, same, opening, parts, bind, Except.bind, pure, Except.pure,
      if_true]
  | scalar unknown known closed =>
    simp only [reader, word, unknown, no_fields closed, namedReader, known, bind, Except.bind]
  | named free closed alone found =>
    obtain ⟨noScalar, noBuilder⟩ := unreserved_iff.mp free
    simp only [reader, word, noBuilder, no_fields closed, namedReader, noScalar, alone, found, bind,
      Except.bind, pure, Except.pure]
  | qualified free closed point second found =>
    obtain ⟨noScalar, noBuilder⟩ := unreserved_iff.mp free
    simp only [reader, word, noBuilder, no_fields closed, namedReader, noScalar, point, second,
      found, bind, Except.bind, pure, Except.pure]

theorem follows_of_namedReader (unknown : Builder.ofName? name = none)
    (closed : sameName name "userType" → Reader.eat? '<' s = none)
    (h : namedReader resolve name s = .ok (t, rest)) : Follows resolve depth name s t rest := by
  unfold namedReader at h
  cases known : Scalar.ofName? name with
  | some k =>
    obtain ⟨rfl, rfl⟩ : Ty.scalar k = t ∧ s = rest := by simpa [known] using h
    exact .scalar unknown known closed
  | none =>
    have free : Unreserved name := unreserved_iff.mpr ⟨known, unknown⟩
    simp only [known] at h
    cases point : Reader.eat? '.' s with
    | none =>
      cases found : resolve none name with
      | none => simp [point, found, bind, Except.bind, pure, Except.pure] at h
      | some u =>
        obtain ⟨rfl, rfl⟩ : u = t ∧ s = rest := by
          simpa [point, found, bind, Except.bind, pure, Except.pure] using h
        exact .named free closed point found
    | some u =>
      simp only [point] at h
      obtain ⟨⟨inner, w⟩, second, left⟩ := bind_eq_ok_iff.mp h
      cases found : resolve (some name) inner with
      | none => simp [found, bind, Except.bind, pure, Except.pure] at left
      | some t' =>
        obtain ⟨rfl, rfl⟩ : t' = t ∧ w = rest := by
          simpa [found, bind, Except.bind, pure, Except.pure] using left
        exact .qualified free closed point second found

theorem exists_follows (h : reader resolve (depth + 1) s = .ok (t, rest)) :
    ∃ name r, nameReader s = .ok (name, r) ∧ Follows resolve depth name r t rest := by
  rw [reader] at h
  obtain ⟨⟨name, r⟩, word, left⟩ := bind_eq_ok_iff.mp h
  refine ⟨name, r, word, ?_⟩
  cases known : Builder.ofName? name with
  | none =>
    simp only [known] at left
    cases fields : if sameName name "userType" then Reader.eat? '<' r else none with
    | some u =>
      obtain ⟨same, opening⟩ : sameName name "userType" ∧ Reader.eat? '<' r = some u := by
        simpa using fields
      simp only [fields] at left
      obtain ⟨⟨parts, v⟩, list, done⟩ := bind_eq_ok_iff.mp left
      obtain ⟨rfl, rfl⟩ : Ty.user none parts = t ∧ v = rest := by
        simpa [pure, Except.pure] using done
      exact .anonymous known same opening list
    | none =>
      simp only [fields] at left
      exact follows_of_namedReader known (by simpa using fields) left
  | some b =>
    cases b with
    | map =>
      simp only [known] at left
      obtain ⟨u, opening, left⟩ := bind_eq_ok_iff.mp left
      obtain ⟨⟨k, v⟩, key, left⟩ := bind_eq_ok_iff.mp left
      obtain ⟨x, comma, left⟩ := bind_eq_ok_iff.mp left
      obtain ⟨⟨value, y⟩, second, left⟩ := bind_eq_ok_iff.mp left
      obtain ⟨rest', closing, done⟩ := bind_eq_ok_iff.mp left
      obtain ⟨rfl, rfl⟩ : Ty.map k value = t ∧ rest' = rest := by
        simpa [pure, Except.pure] using done
      exact .map known opening key comma second closing
    | tuple =>
      simp only [known] at left
      obtain ⟨u, opening, left⟩ := bind_eq_ok_iff.mp left
      obtain ⟨⟨ts, v⟩, elements, done⟩ := bind_eq_ok_iff.mp left
      obtain ⟨rfl, rfl⟩ : Ty.tuple ts = t ∧ v = rest := by simpa [pure, Except.pure] using done
      exact .tuple known opening elements
    | _ =>
      simp only [known] at left
      obtain ⟨u, opening, left⟩ := bind_eq_ok_iff.mp left
      obtain ⟨⟨element, v⟩, inner, left⟩ := bind_eq_ok_iff.mp left
      obtain ⟨rest', closing, done⟩ := bind_eq_ok_iff.mp left
      obtain ⟨rfl, rfl⟩ : _ = t ∧ rest' = rest := by simpa [pure, Except.pure] using done
      exact .around known rfl opening inner closing

end Steps

section Keywords

variable {name : String}

theorem sameName_congr {a b : String} (same : sameName a b) (c : String) :
    sameName a c = sameName b c := by
  unfold sameName
  rw [(sameName_iff a b).mp same]

theorem builder_ofName?_eq_some_iff {b : Builder} :
    Builder.ofName? name = some b ↔ sameName name b.name := by
  constructor
  · intro known
    exact List.find?_some (p := fun b : Builder => sameName name b.name) known
  · intro same
    have known := Builder.ofName?_name b
    unfold Builder.ofName? at *
    simpa only [sameName_congr same] using known

theorem scalar_ofName?_eq_some_iff {k : Scalar} :
    Scalar.ofName? name = some k ↔ sameName name k.name := by
  constructor
  · intro known
    exact List.find?_some (p := fun k : Scalar => sameName name k.name) known
  · intro same
    have known := Scalar.ofName?_name k
    unfold Scalar.ofName? at *
    simpa only [sameName_congr same] using known

theorem ofName?_of_same_scalar {k : Scalar} (same : sameName name k.name) :
    Builder.ofName? name = none := by
  have unknown := ofName?_scalar k
  unfold Builder.ofName? at *
  simpa only [sameName_congr same] using unknown

theorem ofName?_of_userType (same : sameName name "userType") : Builder.ofName? name = none := by
  have unknown : Builder.ofName? "userType" = none := rfl
  unfold Builder.ofName? at *
  simpa only [sameName_congr same] using unknown

end Keywords

section Readers

variable {resolve : Resolver} {depth : Nat} {s rest : List Char} {t : Ty}

theorem sound_reader (resolve : Resolver) (depth : Nat) :
    Sound (Denotes Word resolve) (reader resolve depth) := by
  induction depth with
  | zero =>
    intro s t rest h
    contradiction
  | succ depth ih =>
    intro s t rest h
    obtain ⟨name, r, first, follows⟩ := exists_follows h
    obtain ⟨w, rfl, word⟩ := sound_nameReader first
    cases follows with
    | @around b wrap _ _ _ _ _ known one opening element closing =>
      have same := builder_ofName?_eq_some_iff.mp known
      obtain ⟨o, rfl, opened⟩ := Phrase.exists_mark_of_expect opening
      obtain ⟨i, rfl, inner⟩ := ih element
      obtain ⟨c, rfl, closed⟩ := Phrase.exists_mark_of_expect closing
      refine ⟨w ++ o ++ i ++ c, by simp, ?_⟩
      cases b with
      | list => exact Option.some.inj one ▸ .list word same opened inner closed
      | set => exact Option.some.inj one ▸ .set word same opened inner closed
      | frozen => exact Option.some.inj one ▸ .frozen word same opened inner closed
      | map => contradiction
      | tuple => contradiction
    | map known opening key comma value closing =>
      have same := builder_ofName?_eq_some_iff.mp known
      obtain ⟨o, rfl, opened⟩ := Phrase.exists_mark_of_expect opening
      obtain ⟨i, rfl, key'⟩ := ih key
      obtain ⟨m, rfl, between⟩ := Phrase.exists_mark_of_expect comma
      obtain ⟨j, rfl, value'⟩ := ih value
      obtain ⟨c, rfl, closed⟩ := Phrase.exists_mark_of_expect closing
      exact ⟨w ++ o ++ i ++ m ++ j ++ c, by simp,
        .map word same opened key' between value' closed⟩
    | tuple known opening elements =>
      have same := builder_ofName?_eq_some_iff.mp known
      obtain ⟨o, rfl, opened⟩ := Phrase.exists_mark_of_expect opening
      obtain ⟨i, rfl, listing⟩ := Phrase.sound_list ih elements
      exact ⟨w ++ o ++ i, by simp, .tuple word same opened listing⟩
    | anonymous _ same opening parts =>
      obtain ⟨o, rfl, opened⟩ := Phrase.exists_mark_of_eat? opening
      obtain ⟨i, rfl, listing⟩ := Phrase.sound_list (sound_fieldReader ih) parts
      exact ⟨w ++ o ++ i, by simp, .anonymous word same opened listing⟩
    | scalar _ known _ =>
      exact ⟨w, rfl, .scalar word (scalar_ofName?_eq_some_iff.mp known)⟩
    | named free _ _ found => exact ⟨w, rfl, .named word free found⟩
    | qualified free _ point second found =>
      obtain ⟨p, rfl, dot⟩ := Phrase.exists_mark_of_eat? point
      obtain ⟨u, rfl, inner⟩ := sound_nameReader second
      exact ⟨w ++ p ++ u, by simp, .qualified word free dot inner found⟩

theorem exists_word_of_denotes {word : Phrase String} (denotes : Denotes word resolve s t) :
    ∃ w r name, s = w ++ r ∧
      (word w name ∨ Word w name ∧ ∃ keyspace inner u, resolve keyspace inner = some u) := by
  cases denotes with
  | scalar written _ => exact ⟨s, [], _, (List.append_nil s).symm, .inl written⟩
  | @list w o u c _ _ written _ _ _ _ => exact ⟨w, o ++ u ++ c, _, by simp, .inl written⟩
  | @set w o u c _ _ written _ _ _ _ => exact ⟨w, o ++ u ++ c, _, by simp, .inl written⟩
  | @frozen w o u c _ _ written _ _ _ _ => exact ⟨w, o ++ u ++ c, _, by simp, .inl written⟩
  | @map w o u m v c _ _ _ written _ _ _ _ _ _ =>
    exact ⟨w, o ++ u ++ m ++ v ++ c, _, by simp, .inl written⟩
  | @tuple w o u _ _ written _ _ _ => exact ⟨w, o ++ u, _, by simp, .inl written⟩
  | @anonymous w o u _ _ written _ _ _ => exact ⟨w, o ++ u, _, by simp, .inl written⟩
  | named written _ found =>
    exact ⟨s, [], _, (List.append_nil s).symm, .inr ⟨written, _, _, _, found⟩⟩
  | @qualified w p u _ _ _ outer _ _ _ found =>
    exact ⟨w, p ++ u, _, by simp, .inr ⟨outer, _, _, _, found⟩⟩

theorem opens_of_denotes (denotes : Denotes Word resolve s t) :
    ∃ c r, trimStart s = c :: r ∧ c ≠ '>' := by
  obtain ⟨w, r, name, rfl, word⟩ := exists_word_of_denotes denotes
  obtain ⟨c, u, trimmed, other⟩ := exists_head_of_word (word.elim id And.left)
  exact ⟨c, u ++ r, trimStart_append trimmed, other⟩

theorem opens_of_field {α : Type} {phrase : Phrase α} {f : String × α}
    (field : FieldPhrase phrase s f) : ∃ c r, trimStart s = c :: r ∧ c ≠ '>' := by
  cases field with
  | field word _ _ =>
    obtain ⟨c, u, trimmed, other⟩ := exists_head_of_word word
    exact ⟨c, _, trimStart_append (trimStart_append trimmed), other⟩

section Complete

variable {name : String} {w o c : List Char}

theorem nameReader_of_opening (word : Word w name) (opening : Mark '<' o) (r : List Char) :
    nameReader (w ++ (o ++ r)) = .ok (name, o ++ r) :=
  nameReader_of_word word (apart_mark rfl rfl (by decide) opening)

theorem reader_around {b : Builder} {wrap : Ty → Ty} (one : b.around? = some wrap)
    (word : Word w name) (same : sameName name b.name) (opening : Mark '<' o)
    (element : reader resolve depth (s ++ (c ++ rest)) = .ok (t, c ++ rest))
    (closing : Mark '>' c) :
    reader resolve (depth + 1) (w ++ o ++ s ++ c ++ rest) = .ok (wrap t, rest) := by
  simp only [List.append_assoc]
  apply reader_of_follows (nameReader_of_opening word opening _)
  exact .around (builder_ofName?_eq_some_iff.mpr same) one (Phrase.expect_mark rfl opening) element
    (Phrase.expect_mark rfl closing)

/-- Behind a word, the parts of a type are shorter than the type. -/
theorem complete_reader (resolve : Resolver) (depth : Nat) :
    Complete (Denotes Word resolve) (Continues '>') depth (reader resolve depth) := by
  induction depth with
  | zero =>
    intro s t denotes short
    obtain ⟨c, r, trimmed, -⟩ := opens_of_denotes denotes
    rw [List.length_eq_zero_iff.mp (Nat.le_zero.mp short)] at trimmed
    contradiction
  | succ depth ih =>
    intro s t denotes short rest after
    have closed (name : String) : sameName name "userType" → Reader.eat? '<' rest = none :=
      fun _ => Phrase.eat?_of_continues after (by decide) (by decide)
    cases denotes with
    | @scalar _ name k written same =>
      apply reader_of_follows (nameReader_of_word written (apart_of_continues after))
      exact .scalar (ofName?_of_same_scalar same) (scalar_ofName?_eq_some_iff.mpr same)
        (closed name)
    | @list w o u c name t written same opening element closing =>
      have long := length_pos_of_word written
      simp only [List.length_append] at short
      exact reader_around (b := .list) rfl written same opening
        (ih element (by omega) (Phrase.continues_closing rfl closing)) closing
    | @set w o u c name t written same opening element closing =>
      have long := length_pos_of_word written
      simp only [List.length_append] at short
      exact reader_around (b := .set) rfl written same opening
        (ih element (by omega) (Phrase.continues_closing rfl closing)) closing
    | @frozen w o u c name t written same opening element closing =>
      have long := length_pos_of_word written
      simp only [List.length_append] at short
      exact reader_around (b := .frozen) rfl written same opening
        (ih element (by omega) (Phrase.continues_closing rfl closing)) closing
    | @map w o u m v c name k t written same opening key comma value closing =>
      have long := length_pos_of_word written
      simp only [List.length_append] at short
      simp only [List.append_assoc]
      apply reader_of_follows (nameReader_of_opening written opening _)
      exact .map (builder_ofName?_eq_some_iff.mpr same) (Phrase.expect_mark rfl opening)
        (ih key (by omega) (Phrase.continues_comma comma)) (Phrase.expect_mark rfl comma)
        (ih value (by omega) (Phrase.continues_closing rfl closing))
        (Phrase.expect_mark rfl closing)
    | @tuple w o u name ts written same opening elements =>
      have long := length_pos_of_word written
      simp only [List.length_append] at short
      simp only [List.append_assoc]
      apply reader_of_follows (nameReader_of_opening written opening _)
      exact .tuple (builder_ofName?_eq_some_iff.mpr same) (Phrase.expect_mark rfl opening)
        (Phrase.list_of_phrase rfl (by decide) ih opens_of_denotes elements (by omega))
    | @anonymous w o u name fields written same opening parts =>
      have long := length_pos_of_word written
      simp only [List.length_append] at short
      simp only [List.append_assoc]
      apply reader_of_follows (nameReader_of_opening written opening _)
      exact .anonymous (ofName?_of_userType same) same (Phrase.eat?_mark rfl opening)
        (Phrase.list_of_phrase rfl (by decide) (complete_fieldReader ih) opens_of_field parts
          (by omega))
    | @named _ name _ written free found =>
      apply reader_of_follows (nameReader_of_word written (apart_of_continues after))
      exact .named free (closed name) (Phrase.eat?_of_continues after (by decide) (by decide)) found
    | @qualified w p u keyspace name _ outer free point inner found =>
      simp only [List.append_assoc]
      have first : nameReader (w ++ (p ++ (u ++ rest))) = .ok (keyspace, p ++ (u ++ rest)) :=
        nameReader_of_word outer (apart_mark rfl rfl (by decide) point)
      have second : nameReader (u ++ rest) = .ok (name, rest) :=
        nameReader_of_word inner (apart_of_continues after)
      apply reader_of_follows first
      apply Follows.qualified free _ (Phrase.eat?_mark rfl point) second found
      intro _
      exact Phrase.eat?_of_trimStart (Phrase.trimStart_mark rfl point) (by decide)

end Complete

/-- A text is read as a type exactly if the grammar derives it with this meaning, whatever the
resolver knows; so no text has two meanings. Keywords and names of scalars may be in double quotes,
as any name may. -/
theorem parseWith_eq_ok_iff_derives (resolve : Resolver) (input : String) :
    (∀ t, parseWith resolve input = .ok t ↔ Derives Word resolve input t) ∧
    ∀ t u, Derives Word resolve input t → Derives Word resolve input u → t = u := by
  have exact_grammar (t : Ty) : parseWith resolve input = .ok t ↔ Derives Word resolve input t := by
    unfold parseWith
    rw [Phrase.whole_eq_ok_iff]
    constructor
    · rintro ⟨rest, read, blank⟩
      obtain ⟨s, split, denotes⟩ := sound_reader resolve _ read
      exact ⟨s, rest, blank, split, denotes⟩
    · rintro ⟨s, blanks, blank, split, denotes⟩
      refine ⟨blanks, ?_, blank⟩
      have enough : s.length ≤ input.toList.length + 1 := by
        rw [split, List.length_append]
        omega
      have read := complete_reader resolve _ denotes enough (Phrase.continues_blank blank)
      rwa [← split] at read
  refine ⟨exact_grammar, ?_⟩
  intro t u ht hu
  have same := ((exact_grammar t).mpr ht).symm.trans ((exact_grammar u).mpr hu)
  exact Except.ok.inj same

theorem parseWith_eq_ok_iff_derives_nested :
    let resolve : Resolver := fun keyspace name =>
      keyspace.map fun k : String => .user (some ⟨some k, name⟩) []
    let input := " Map< \"TEXT\" ,\tfrozen<userType<\"a \"\"b\":Ks . x>> > "
    let t : Ty := .map (.scalar .text) (.user none [("a \"b", .user (some ⟨"Ks", "x"⟩) [])])
    Derives Word resolve input t ∧ ∀ u, Derives Word resolve input u → u = t := by
  intro resolve input t
  obtain ⟨exact_grammar, unique⟩ := parseWith_eq_ok_iff_derives resolve input
  have read : parseWith resolve input = .ok t := by
    subst resolve input t
    rfl
  have derived : Derives Word resolve input t := (exact_grammar t).mp read
  exact ⟨derived, fun u other => unique u t other derived⟩

/-- The name of a scalar is read from within quotes too, so that a grammar in which only names of
user types and fields may be in quotes is not the grammar of types. -/
theorem parseWith_quoted_scalar :
    parseWith noUserTypes "\"int\"" = .ok (.scalar .int) ∧
      ¬ ∃ t, Derives BareWord noUserTypes "\"int\"" t := by
  refine ⟨rfl, ?_⟩
  rintro ⟨t, s, blanks, -, split, denotes⟩
  obtain ⟨w, r, name, rfl, bare | ⟨-, keyspace, inner, u, found⟩⟩ := exists_word_of_denotes denotes
  · obtain ⟨c, v, trimmed, part⟩ := exists_head_of_bareWord bare
    have first : trimStart (w ++ r ++ blanks) = c :: _ :=
      trimStart_append (trimStart_append trimmed)
    rw [← split] at first
    obtain rfl : '"' = c := (List.cons.inj first).1
    contradiction
  · contradiction

end Readers

end Ty

end Cql
