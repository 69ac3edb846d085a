import Cql.Proofs.Validator.Word

namespace Cql

namespace Validator

open Phrase (Mark Items Sound Complete Continues)

/-- The classes that leave the type within them as it is. -/
inductive Wrapper
  | frozen | reversed
  deriving DecidableEq, Repr

def Wrapper.className : Wrapper → String
  | .frozen => "FrozenType"
  | .reversed => "ReversedType"

inductive Term
  | scalar (s : Scalar)
  | list (element : Term)
  | set (element : Term)
  | map (key value : Term)
  | tuple (elements : List Term)
  | user (keyspace name : String) (fields : List (String × Term))
  | wrapped (wrapper : Wrapper) (inner : Term)

namespace Term

mutual

def erased : Term → Ty
  | .scalar s => .scalar s
  | .list t => .list t.erased
  | .set t => .set t.erased
  | .map k v => .map k.erased v.erased
  | .tuple ts => .tuple (elementsErased ts)
  | .user keyspace name fields => .user (some ⟨some keyspace, name⟩) (fieldsErased fields)
  | .wrapped _ t => t.erased

def elementsErased : List Term → List Ty
  | [] => []
  | t :: ts => t.erased :: elementsErased ts

def fieldsErased : List (String × Term) → List (String × Ty)
  | [] => []
  | (name, t) :: fields => (name, t.erased) :: fieldsErased fields

end

@[simp] theorem elementsErased_eq (ts : List Term) : elementsErased ts = ts.map erased := by
  induction ts with
  | nil => rfl
  | cons t ts ih => rw [elementsErased, ih, List.map_cons]

@[simp] theorem fieldsErased_eq (fields : List (String × Term)) :
    fieldsErased fields = fields.map (Prod.map id erased) := by
  induction fields with
  | nil => rfl
  | cons f fields ih =>
    rw [fieldsErased, ih]
    rfl

end Term

inductive FieldPhrase {α : Type} (inner : Phrase α) : Phrase (String × α)
  | field {w c s : List Char} {name : String} {x : α} (word : HexWord w name) (colon : Mark ':' c)
      (value : inner s x) : FieldPhrase inner (w ++ c ++ s) (name, x)

inductive Fields {α : Type} (inner : Phrase α) : Phrase (List (String × α))
  | none {c : List Char} (closed : Mark ')' c) : Fields inner c []
  | some {m u : List Char} {fields : List (String × α)} (comma : Mark ',' m)
      (items : Items (FieldPhrase inner) ')' u fields) : Fields inner (m ++ u) fields

inductive Parameters (inner : Phrase Term) : String → Phrase Term
  | scalar {name : String} {k : Scalar} (known : scalars.lookup name = some k) :
      Parameters inner name [] (.scalar k)
  | list {o s c : List Char} {t : Term} (opening : Mark '(' o) (element : inner s t)
      (closing : Mark ')' c) : Parameters inner "ListType" (o ++ s ++ c) (.list t)
  | set {o s c : List Char} {t : Term} (opening : Mark '(' o) (element : inner s t)
      (closing : Mark ')' c) : Parameters inner "SetType" (o ++ s ++ c) (.set t)
  | map {o s m u c : List Char} {k v : Term} (opening : Mark '(' o) (key : inner s k)
      (comma : Mark ',' m) (value : inner u v) (closing : Mark ')' c) :
      Parameters inner "MapType" (o ++ s ++ m ++ u ++ c) (.map k v)
  | tuple {o s : List Char} {ts : List Term} (opening : Mark '(' o)
      (elements : Items inner ')' s ts) : Parameters inner "TupleType" (o ++ s) (.tuple ts)
  | user {o k m h s : List Char} {keyspace name : String} {fields : List (String × Term)}
      (opening : Mark '(' o) (outer : Token k keyspace) (comma : Mark ',' m)
      (named : HexWord h name) (parts : Fields inner s fields) :
      Parameters inner "UserType" (o ++ k ++ m ++ h ++ s) (.user keyspace name fields)
  | wrapped (wrapper : Wrapper) {o s c : List Char} {t : Term} (opening : Mark '(' o)
      (element : inner s t) (closing : Mark ')' c) :
      Parameters inner wrapper.className (o ++ s ++ c) (.wrapped wrapper t)

/-- The texts that spell a term: the name of a class and its parameters. -/
inductive Spells : Phrase Term
  | class {w s : List Char} {name : String} {t : Term} (word : ClassWord w name)
      (parameters : Parameters Spells name s t) : Spells (w ++ s) t

section Fields

variable {α β : Type} {phrase : Phrase Ty} {inner : Reader Ty} {s rest : List Char}

theorem fieldPhrase_map (f : α → β) (phrase : Phrase α) :
    FieldPhrase (Phrase.map f phrase) = Phrase.map (Prod.map id f) (FieldPhrase phrase) := by
  funext s y
  apply propext
  constructor
  · rintro ⟨word, colon, x, value, rfl⟩
    exact ⟨(_, x), .field word colon value, rfl⟩
  · rintro ⟨_, ⟨word, colon, value⟩, rfl⟩
    exact .field word colon ⟨_, value, rfl⟩

theorem fields_map (f : α → β) (phrase : Phrase α) :
    Fields (Phrase.map f phrase) = Phrase.map (List.map (Prod.map id f)) (Fields phrase) := by
  have parts := Phrase.items_map (Prod.map id f) (FieldPhrase phrase) ')'
  funext s ys
  apply propext
  constructor
  · rintro (closed | ⟨comma, items⟩)
    · exact ⟨[], .none closed, rfl⟩
    · rw [fieldPhrase_map, parts] at items
      obtain ⟨xs, items, rfl⟩ := items
      exact ⟨xs, .some comma items, rfl⟩
  · rintro ⟨_, closed | ⟨comma, items⟩, rfl⟩
    · exact .none closed
    · refine .some comma ?_
      rw [fieldPhrase_map, parts]
      exact ⟨_, items, rfl⟩

theorem sound_fieldReader (sound : Sound phrase inner) :
    Sound (FieldPhrase phrase) (fieldReader inner) := by
  intro s f rest h
  unfold fieldReader at h
  obtain ⟨⟨name, r⟩, first, left⟩ := bind_eq_ok_iff.mp h
  obtain ⟨u, second, left⟩ := bind_eq_ok_iff.mp left
  obtain ⟨⟨x, v⟩, third, same⟩ := bind_eq_ok_iff.mp left
  obtain ⟨rfl, rfl⟩ : (name, x) = f ∧ v = rest := by simpa [pure, Except.pure] using same
  obtain ⟨w, rfl, word⟩ := sound_hexNameReader first
  obtain ⟨c, rfl, colon⟩ := Phrase.exists_mark_of_expect second
  obtain ⟨t, rfl, value⟩ := sound third
  exact ⟨w ++ c ++ t, by simp, .field word colon value⟩

theorem complete_fieldReader {follows : List Char → Prop} {size : Nat}
    (complete : Complete phrase follows size inner) :
    Complete (FieldPhrase phrase) follows size (fieldReader inner) := by
  intro u f field short rest after
  cases field with
  | @field w c s name x word colon value =>
    rw [List.length_append, List.length_append] at short
    have first : hexNameReader (w ++ (c ++ (s ++ rest))) = .ok (name, c ++ (s ++ rest)) :=
      hexNameReader_of_word word (ends_mark rfl rfl colon)
    have second : Reader.expect ':' (c ++ (s ++ rest)) = .ok (s ++ rest) :=
      Phrase.expect_mark rfl colon
    have third : inner (s ++ rest) = .ok (x, rest) := complete value (by omega) after
    rw [List.append_assoc, List.append_assoc]
    simp only [fieldReader, first, second, third, bind, Except.bind, pure, Except.pure]

theorem exists_of_userReader (sound : Sound phrase inner) {t : Ty}
    (h : userReader inner s = .ok (t, rest)) :
    ∃ k m d u keyspace name fields, s = k ++ m ++ d ++ u ++ rest ∧ Token k keyspace ∧
      Mark ',' m ∧ HexWord d name ∧ Fields phrase u fields ∧
        t = .user (some ⟨some keyspace, name⟩) fields := by
  unfold userReader at h
  obtain ⟨⟨keyspace, r⟩, first, h⟩ := bind_eq_ok_iff.mp h
  obtain ⟨v, comma, h⟩ := bind_eq_ok_iff.mp h
  obtain ⟨⟨name, w⟩, second, left⟩ := bind_eq_ok_iff.mp h
  obtain ⟨k, rfl, outer⟩ := sound_wordReader first
  obtain ⟨m, rfl, between⟩ := Phrase.exists_mark_of_expect comma
  obtain ⟨d, rfl, named⟩ := sound_hexNameReader second
  cases closed : Reader.eat? ')' w with
  | some x =>
    obtain ⟨rfl, rfl⟩ : Ty.user (some ⟨some keyspace, name⟩) [] = t ∧ x = rest := by
      simpa [closed, pure, Except.pure] using left
    obtain ⟨c, rfl, end'⟩ := Phrase.exists_mark_of_eat? closed
    exact ⟨k, m, d, c, keyspace, name, [], by simp, outer, between, named, .none end', rfl⟩
  | none =>
    simp only [closed] at left
    obtain ⟨x, comma', left⟩ := bind_eq_ok_iff.mp left
    obtain ⟨⟨fields, y⟩, parts, done⟩ := bind_eq_ok_iff.mp left
    obtain ⟨rfl, rfl⟩ : Ty.user (some ⟨some keyspace, name⟩) fields = t ∧ y = rest := by
      simpa [pure, Except.pure] using done
    obtain ⟨n, rfl, next⟩ := Phrase.exists_mark_of_expect comma'
    obtain ⟨u, rfl, items⟩ := Phrase.sound_items (sound_fieldReader sound) parts
    exact ⟨k, m, d, n ++ u, keyspace, name, fields, by simp, outer, between, named,
      .some next items, rfl⟩

theorem userReader_of_phrases {size : Nat} (complete : Complete phrase (Continues ')') size inner)
    {k m d u : List Char} {keyspace name : String} {fields : List (String × Ty)}
    (outer : Token k keyspace) (comma : Mark ',' m) (named : HexWord d name)
    (parts : Fields phrase u fields) (short : u.length ≤ size) (rest : List Char) :
    userReader inner (k ++ (m ++ (d ++ (u ++ rest)))) =
      .ok (.user (some ⟨some keyspace, name⟩) fields, rest) := by
  have first : wordReader (k ++ (m ++ (d ++ (u ++ rest)))) = .ok (keyspace, _) :=
    wordReader_of_token outer (ends_mark rfl rfl comma)
  have second : Reader.expect ',' (m ++ (d ++ (u ++ rest))) = .ok _ :=
    Phrase.expect_mark rfl comma
  cases parts with
  | none closed =>
    have third : hexNameReader (d ++ (u ++ rest)) = .ok (name, _) :=
      hexNameReader_of_word named (ends_mark rfl rfl closed)
    have fourth : Reader.eat? ')' (u ++ rest) = some rest := Phrase.eat?_mark rfl closed
    simp only [userReader, first, second, third, fourth, bind, Except.bind, pure, Except.pure]
  | @some n v _ next items =>
    rw [List.length_append] at short
    rw [List.append_assoc] at *
    have third : hexNameReader (d ++ (n ++ (v ++ rest))) = .ok (name, _) :=
      hexNameReader_of_word named (ends_mark rfl rfl next)
    have fourth : Reader.eat? ')' (n ++ (v ++ rest)) = none :=
      Phrase.eat?_of_trimStart (Phrase.trimStart_mark rfl next) (by decide)
    have fifth : Reader.expect ',' (n ++ (v ++ rest)) = .ok _ := Phrase.expect_mark rfl next
    have sixth : Reader.items (fieldReader inner) ')' ((v ++ rest).length + 1) (v ++ rest) =
        .ok (fields, rest) :=
      Phrase.items_with_length rfl (by decide) (complete_fieldReader complete) items (by omega)
    simp only [userReader, first, second, third, fourth, fifth, sixth, bind, Except.bind, pure,
      Except.pure]

end Fields

section Readers

variable {phrase : Phrase Term} {inner : Reader Ty} {name : String} {s u rest : List Char}
  {t : Ty} {term : Term}

theorem exists_of_enclosed (sound : Sound (Phrase.map Term.erased phrase) inner) (wrap : Ty → Ty)
    (h : (do
      let (t, s) ← inner s
      return (wrap t, ← Reader.expect ')' s)) = .ok (t, rest)) :
    ∃ v c term, s = v ++ c ++ rest ∧ phrase v term ∧ Mark ')' c ∧ wrap term.erased = t := by
  obtain ⟨⟨element, r⟩, first, h⟩ := bind_eq_ok_iff.mp h
  obtain ⟨r', closing, done⟩ := bind_eq_ok_iff.mp h
  obtain ⟨rfl, rfl⟩ : wrap element = t ∧ r' = rest := by simpa [pure, Except.pure] using done
  obtain ⟨v, rfl, term, meaning, rfl⟩ := sound first
  obtain ⟨c, rfl, closed⟩ := Phrase.exists_mark_of_expect closing
  exact ⟨v, c, term, by simp, meaning, closed, rfl⟩

theorem exists_of_bodyReader (sound : Sound (Phrase.map Term.erased phrase) inner)
    (h : bodyReader inner name s = .ok (t, rest)) :
    ∃ u term, s = u ++ rest ∧ Parameters phrase name u term ∧ term.erased = t := by
  unfold bodyReader at h
  split at h
  · rename_i k known
    obtain ⟨rfl, rfl⟩ : Ty.scalar k = t ∧ s = rest := by simpa using h
    exact ⟨[], .scalar k, rfl, .scalar known, rfl⟩
  · obtain ⟨r, opening, left⟩ := bind_eq_ok_iff.mp h
    obtain ⟨o, rfl, opened⟩ := Phrase.exists_mark_of_expect opening
    split at left
    · obtain ⟨v, c, term, rfl, element, closed, rfl⟩ := exists_of_enclosed sound .list left
      exact ⟨o ++ v ++ c, .list term, by simp, .list opened element closed, rfl⟩
    · obtain ⟨v, c, term, rfl, element, closed, rfl⟩ := exists_of_enclosed sound .set left
      exact ⟨o ++ v ++ c, .set term, by simp, .set opened element closed, rfl⟩
    · obtain ⟨⟨k, v⟩, first, left⟩ := bind_eq_ok_iff.mp left
      obtain ⟨w, comma, left⟩ := bind_eq_ok_iff.mp left
      obtain ⟨w', c, value, rfl, value', closed, rfl⟩ := exists_of_enclosed sound _ left
      obtain ⟨m, rfl, between⟩ := Phrase.exists_mark_of_expect comma
      obtain ⟨v', rfl, key, key', rfl⟩ := sound first
      exact ⟨o ++ v' ++ m ++ w' ++ c, .map key value, by simp,
        .map opened key' between value' closed, rfl⟩
    · obtain ⟨v, c, term, rfl, element, closed, rfl⟩ := exists_of_enclosed sound id left
      exact ⟨o ++ v ++ c, .wrapped .frozen term, by simp,
        .wrapped .frozen opened element closed, rfl⟩
    · obtain ⟨v, c, term, rfl, element, closed, rfl⟩ := exists_of_enclosed sound id left
      exact ⟨o ++ v ++ c, .wrapped .reversed term, by simp,
        .wrapped .reversed opened element closed, rfl⟩
    · obtain ⟨⟨ts, v⟩, first, done⟩ := bind_eq_ok_iff.mp left
      obtain ⟨rfl, rfl⟩ : Ty.tuple ts = t ∧ v = rest := by simpa [pure, Except.pure] using done
      obtain ⟨u, rfl, items⟩ := Phrase.sound_items sound first
      rw [Phrase.items_map] at items
      obtain ⟨terms, elements, rfl⟩ := items
      exact ⟨o ++ u, .tuple terms, by simp, .tuple opened elements, by simp [Term.erased]⟩
    · obtain ⟨k, m, d, u, keyspace, name, fields, rfl, outer, comma, named, parts, rfl⟩ :=
        exists_of_userReader sound left
      rw [fields_map] at parts
      obtain ⟨fields, parts, rfl⟩ := parts
      exact ⟨o ++ k ++ m ++ d ++ u, .user keyspace name fields, by simp,
        .user opened outer comma named parts, by simp [Term.erased]⟩
    · contradiction

theorem sound_tyReader (depth : Nat) :
    Sound (Phrase.map Term.erased Spells) (tyReader depth) := by
  induction depth with
  | zero =>
    intro s t rest h
    contradiction
  | succ depth ih =>
    intro s t rest h
    unfold tyReader at h
    obtain ⟨⟨name, r⟩, first, body⟩ := bind_eq_ok_iff.mp h
    obtain ⟨w, rfl, word⟩ := sound_classReader first
    obtain ⟨u, term, rfl, parameters, rfl⟩ := exists_of_bodyReader ih body
    exact ⟨w ++ u, by simp, term, .class word parameters, rfl⟩

theorem stripPackage_of_parameters (parameters : Parameters phrase name u term) :
    stripPackage name = name := by
  have bare : ∀ entry ∈ scalars, stripPackage entry.1 = entry.1 := by decide
  cases parameters with
  | scalar known =>
    obtain ⟨before, others, split, -⟩ := List.lookup_eq_some_iff.mp known
    exact bare (name, _) (by rw [split]; exact List.mem_append_cons_self)
  | wrapped wrapper => cases wrapper <;> rfl
  | _ => rfl

theorem ends_of_parameters (parameters : Parameters phrase name u term)
    (after : Continues ')' rest) : Ends (u ++ rest) := by
  cases parameters with
  | scalar => exact ends_of_continues after
  | list opening | set opening | map opening | tuple opening | user opening | wrapped _ opening =>
    simp only [List.append_assoc]
    exact ends_mark rfl rfl opening

section Complete

variable {size : Nat}

theorem read_enclosed
    (complete : Complete (Phrase.map Term.erased phrase) (Continues ')') size inner)
    {o c : List Char} (opening : Mark '(' o) (element : phrase s term) (closing : Mark ')' c)
    (short : (o ++ s ++ c).length ≤ size) (rest : List Char) :
    Reader.expect '(' (o ++ s ++ c ++ rest) = .ok (s ++ (c ++ rest)) ∧
      inner (s ++ (c ++ rest)) = .ok (term.erased, c ++ rest) ∧
        Reader.expect ')' (c ++ rest) = .ok rest := by
  rw [List.length_append, List.length_append] at short
  rw [List.append_assoc, List.append_assoc]
  exact ⟨Phrase.expect_mark rfl opening,
    complete ⟨term, element, rfl⟩ (by omega) (Phrase.continues_closing rfl closing),
    Phrase.expect_mark rfl closing⟩

theorem bodyReader_of_parameters
    (complete : Complete (Phrase.map Term.erased phrase) (Continues ')') size inner)
    (parameters : Parameters phrase name u term) (short : u.length ≤ size) (rest : List Char) :
    bodyReader inner name (u ++ rest) = .ok (term.erased, rest) := by
  cases parameters with
  | scalar known => simp only [bodyReader, known, List.nil_append, Term.erased]
  | list opening element closing =>
    have unknown : scalars.lookup "ListType" = none := rfl
    obtain ⟨first, second, third⟩ := read_enclosed complete opening element closing short rest
    simp only [bodyReader, unknown, first, second, third, bind, Except.bind, pure, Except.pure,
      Term.erased]
  | set opening element closing =>
    have unknown : scalars.lookup "SetType" = none := rfl
    obtain ⟨first, second, third⟩ := read_enclosed complete opening element closing short rest
    simp only [bodyReader, unknown, first, second, third, bind, Except.bind, pure, Except.pure,
      Term.erased]
  | wrapped wrapper opening element closing =>
    have frozen : scalars.lookup "FrozenType" = none := rfl
    have reversed : scalars.lookup "ReversedType" = none := rfl
    obtain ⟨first, second, third⟩ := read_enclosed complete opening element closing short rest
    cases wrapper <;>
      simp only [Wrapper.className, bodyReader, frozen, reversed, first, second, third, bind,
        Except.bind, pure, Except.pure, Term.erased]
  | @map o s m v c k t opening key comma value closing =>
    simp only [List.length_append] at short
    have unknown : scalars.lookup "MapType" = none := rfl
    have first : Reader.expect '(' (o ++ (s ++ (m ++ (v ++ (c ++ rest))))) = .ok _ :=
      Phrase.expect_mark rfl opening
    have second : inner (s ++ (m ++ (v ++ (c ++ rest)))) = .ok (k.erased, _) :=
      complete ⟨k, key, rfl⟩ (by omega) (Phrase.continues_comma comma)
    have third : Reader.expect ',' (m ++ (v ++ (c ++ rest))) = .ok _ :=
      Phrase.expect_mark rfl comma
    have fourth : inner (v ++ (c ++ rest)) = .ok (t.erased, _) :=
      complete ⟨t, value, rfl⟩ (by omega) (Phrase.continues_closing rfl closing)
    have fifth : Reader.expect ')' (c ++ rest) = .ok rest := Phrase.expect_mark rfl closing
    simp only [List.append_assoc, bodyReader, unknown, first, second, third, fourth, fifth, bind,
      Except.bind, pure, Except.pure, Term.erased]
  | @tuple o s terms opening elements =>
    simp only [List.length_append] at short
    have unknown : scalars.lookup "TupleType" = none := rfl
    have first : Reader.expect '(' (o ++ (s ++ rest)) = .ok _ := Phrase.expect_mark rfl opening
    have items : Items (Phrase.map Term.erased phrase) ')' s (terms.map Term.erased) := by
      rw [Phrase.items_map]
      exact ⟨terms, elements, rfl⟩
    have second : Reader.items inner ')' ((s ++ rest).length + 1) (s ++ rest) =
        .ok (terms.map Term.erased, rest) :=
      Phrase.items_with_length rfl (by decide) complete items (by omega)
    simp only [List.append_assoc, bodyReader, unknown, first, second, bind, Except.bind, pure,
      Except.pure, Term.erased, Term.elementsErased_eq]
  | @user o k m d v keyspace name fields opening outer comma named parts =>
    simp only [List.length_append] at short
    have unknown : scalars.lookup "UserType" = none := rfl
    have first : Reader.expect '(' (o ++ (k ++ (m ++ (d ++ (v ++ rest))))) = .ok _ :=
      Phrase.expect_mark rfl opening
    have parts' : Fields (Phrase.map Term.erased phrase) v
        (fields.map (Prod.map id Term.erased)) := by
      rw [fields_map]
      exact ⟨fields, parts, rfl⟩
    have second := userReader_of_phrases complete outer comma named parts' (by omega) rest
    simp only [List.append_assoc, bodyReader, unknown, first, second, bind, Except.bind,
      Term.erased, Term.fieldsErased_eq]

theorem classReader_of_parameters {w : List Char} (word : ClassWord w name)
    (parameters : Parameters phrase name u term) (after : Continues ')' rest) :
    classReader (w ++ u ++ rest) = .ok (name, u ++ rest) := by
  rw [List.append_assoc]
  exact classReader_of_word word (stripPackage_of_parameters parameters)
    (ends_of_parameters parameters after)

theorem complete_tyReader (depth : Nat) :
    Complete (Phrase.map Term.erased Spells) (Continues ')') depth (tyReader depth) := by
  induction depth with
  | zero =>
    rintro _ _ ⟨_, ⟨word, -⟩, rfl⟩ short
    have long := length_pos_of_classWord word
    rw [List.length_append] at short
    omega
  | succ depth ih =>
    rintro _ _ ⟨_, @⟨w, u, name, term, word, parameters⟩, rfl⟩ short rest after
    have long := length_pos_of_classWord word
    rw [List.length_append] at short
    have first := classReader_of_parameters word parameters after
    have second := bodyReader_of_parameters ih parameters (by omega) rest
    simp only [tyReader, first, second, bind, Except.bind]

end Complete

end Readers

end Validator

end Cql
