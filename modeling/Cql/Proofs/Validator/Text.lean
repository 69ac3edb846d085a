import Cql.Proofs.Validator.Wrapper

namespace Cql

namespace Validator

open Phrase (Mark Items)

def className? (s : Scalar) : Option String := (scalars.find? (·.2 == s)).map (·.1)

def classText (qualified : Bool) (name : String) : String :=
  if qualified then package ++ name else name

def applied (qualified : Bool) (name : String) (parameters : List String) : String :=
  classText qualified name ++ "(" ++ ",".intercalate parameters ++ ")"

mutual

/-- The type as a validator; none for `varchar`, user types and tuples without elements. -/
def tyText? (qualified : Bool) : Ty → Option String
  | .scalar s => (className? s).map (classText qualified)
  | .list element => do
    return applied qualified "ListType" [← tyText? qualified element]
  | .set element => do
    return applied qualified "SetType" [← tyText? qualified element]
  | .map key value => do
    return applied qualified "MapType" [← tyText? qualified key, ← tyText? qualified value]
  | .tuple [] => none
  | .tuple (t :: ts) => do
    return applied qualified "TupleType" ((← tyText? qualified t) :: (← tyTexts? qualified ts))
  | .user _ _ => none

def tyTexts? (qualified : Bool) : List Ty → Option (List String)
  | [] => some []
  | t :: ts => do return (← tyText? qualified t) :: (← tyTexts? qualified ts)

end

def around (qualified wanted : Bool) (wrapper : Wrapper) (text : String) : String :=
  if wanted then applied qualified wrapper.className [text] else text

def text? (qualified : Bool) (v : Validator) : Option String :=
  (tyText? qualified v.ty).map fun text =>
    around qualified v.reversed .reversed (around qualified v.frozen .frozen text)

inductive Classed : Ty → Prop
  | scalar {s : Scalar} (other : s ≠ .varchar) : Classed (.scalar s)
  | list {t : Ty} (element : Classed t) : Classed (.list t)
  | set {t : Ty} (element : Classed t) : Classed (.set t)
  | map {k v : Ty} (key : Classed k) (value : Classed v) : Classed (.map k v)
  | tuple {ts : List Ty} (nonempty : ts ≠ []) (elements : ∀ t ∈ ts, Classed t) :
      Classed (.tuple ts)

section Words

variable {name : String}

theorem mark_self (c : Char) : Mark c [c] := ⟨[], nofun, rfl⟩

def IsWord (name : String) : Prop := name.toList ≠ [] ∧ ∀ c ∈ name.toList, isWordChar c

instance (name : String) : Decidable (IsWord name) :=
  decidable_of_iff' (name.toList ≠ [] ∧ name.toList.all isWordChar) (by simp [IsWord])

theorem token_self (word : IsWord name) : Token name.toList name :=
  ⟨[], nofun, word.1, word.2, rfl⟩

theorem isWord_append {first : String} (word : IsWord first) (other : IsWord name) :
    IsWord (first ++ name) := by
  unfold IsWord
  rw [String.toList_append]
  exact ⟨List.append_ne_nil_of_left_ne_nil word.1 _, List.forall_mem_append.mpr ⟨word.2, other.2⟩⟩

theorem classWord_classText (qualified : Bool) (word : IsWord name) :
    ClassWord (classText qualified name).toList name := by
  cases qualified with
  | false => exact .inl (token_self word)
  | true =>
    have first : IsWord package := by decide
    exact .inr (token_self (isWord_append first word))

theorem exists_class {s : Scalar} (other : s ≠ .varchar) :
    ∃ name, className? s = some name ∧ scalars.lookup name = some s ∧ IsWord name := by
  cases s <;> first | contradiction | exact ⟨_, rfl, rfl, by decide⟩

theorem toList_applied_one (qualified : Bool) (name text : String) :
    (applied qualified name [text]).toList =
      (classText qualified name).toList ++ (['('] ++ text.toList ++ [')']) := by
  simp [applied]

theorem toList_applied_two (qualified : Bool) (name first second : String) :
    (applied qualified name [first, second]).toList =
      (classText qualified name).toList ++
        (['('] ++ first.toList ++ [','] ++ second.toList ++ [')']) := by
  simp [applied]

theorem toList_applied (qualified : Bool) (name : String) (texts : List String) :
    (applied qualified name texts).toList =
      (classText qualified name).toList ++
        (['('] ++ ((",".intercalate texts).toList ++ [')'])) := by
  simp [applied]

theorem items_of_texts {phrase : Phrase Ty} {text : String} {texts : List String} {t : Ty}
    {ts : List Ty}
    (written : List.Forall₂ (fun text t => phrase text.toList t) (text :: texts) (t :: ts)) :
    Items phrase ')' ((",".intercalate (text :: texts)).toList ++ [')']) (t :: ts) := by
  induction texts generalizing text t ts with
  | nil =>
    obtain _ | ⟨first, ⟨⟩⟩ := written
    rw [String.intercalate_singleton]
    exact .last first (mark_self ')')
  | cons other texts ih =>
    obtain _ | ⟨first, rest⟩ := written
    obtain _ | ⟨second, others⟩ := rest
    have joined : (",".intercalate (text :: other :: texts)).toList ++ [')'] =
        text.toList ++ [','] ++ ((",".intercalate (other :: texts)).toList ++ [')']) := by
      simp
    rw [joined]
    exact .more first (mark_self ',') (ih (.cons second others))

end Words

section Types

variable {qualified : Bool} {text : String} {t : Ty}

def Plain (text : String) (t : Ty) : Prop :=
  ∃ term, Spells text.toList term ∧ term.erased = t ∧ term.isReversed = false ∧
    term.isFrozen = false

theorem plain_list (qualified : Bool) (element : Plain text t) :
    Plain (applied qualified "ListType" [text]) (.list t) := by
  obtain ⟨term, spelled, rfl, -, -⟩ := element
  have word : ClassWord _ "ListType" := classWord_classText qualified (by decide)
  refine ⟨.list term, ?_, rfl, rfl, rfl⟩
  rw [toList_applied_one]
  exact .class word (.list (mark_self '(') spelled (mark_self ')'))

theorem plain_set (qualified : Bool) (element : Plain text t) :
    Plain (applied qualified "SetType" [text]) (.set t) := by
  obtain ⟨term, spelled, rfl, -, -⟩ := element
  have word : ClassWord _ "SetType" := classWord_classText qualified (by decide)
  refine ⟨.set term, ?_, rfl, rfl, rfl⟩
  rw [toList_applied_one]
  exact .class word (.set (mark_self '(') spelled (mark_self ')'))

theorem plain_map (qualified : Bool) {key value : String} {k v : Ty} (first : Plain key k)
    (second : Plain value v) :
    Plain (applied qualified "MapType" [key, value]) (.map k v) := by
  obtain ⟨keyTerm, keySpelled, rfl, -, -⟩ := first
  obtain ⟨valueTerm, valueSpelled, rfl, -, -⟩ := second
  have word : ClassWord _ "MapType" := classWord_classText qualified (by decide)
  refine ⟨.map keyTerm valueTerm, ?_, rfl, rfl, rfl⟩
  rw [toList_applied_two]
  exact .class word
    (.map (mark_self '(') keySpelled (mark_self ',') valueSpelled (mark_self ')'))

theorem plain_tuple (qualified : Bool) {texts : List String} {ts : List Ty}
    (elements : List.Forall₂ Plain (text :: texts) (t :: ts)) :
    Plain (applied qualified "TupleType" (text :: texts)) (.tuple (t :: ts)) := by
  have written : List.Forall₂ (fun text t => Phrase.map Term.erased Spells text.toList t)
      (text :: texts) (t :: ts) :=
    elements.imp fun text t ⟨term, spelled, same, _⟩ => ⟨term, spelled, same⟩
  have items := items_of_texts written
  rw [Phrase.items_map] at items
  obtain ⟨terms, spelled, same⟩ := items
  have word : ClassWord _ "TupleType" := classWord_classText qualified (by decide)
  refine ⟨.tuple terms, ?_, by rw [Term.erased, Term.elementsErased_eq, same], rfl, rfl⟩
  rw [toList_applied]
  exact .class word (.tuple (mark_self '(') spelled)

theorem exists_texts {ts : List Ty}
    (written : ∀ t ∈ ts, ∃ text, tyText? qualified t = some text ∧ Plain text t) :
    ∃ texts, tyTexts? qualified ts = some texts ∧ List.Forall₂ Plain texts ts := by
  induction ts with
  | nil => exact ⟨[], rfl, .nil⟩
  | cons t ts ih =>
    obtain ⟨⟨text, here, plain⟩, others⟩ := List.forall_mem_cons.mp written
    obtain ⟨texts, rest, all⟩ := ih others
    exact ⟨text :: texts, by simp [tyTexts?, here, rest], .cons plain all⟩

theorem exists_tyText (qualified : Bool) (classed : Classed t) :
    ∃ text, tyText? qualified t = some text ∧ Plain text t := by
  induction classed with
  | scalar other =>
    obtain ⟨name, named, known, word⟩ := exists_class other
    refine ⟨classText qualified name, by simp [tyText?, named], .scalar _, ?_, rfl, rfl, rfl⟩
    rw [← List.append_nil (classText qualified name).toList]
    exact .class (classWord_classText qualified word) (.scalar known)
  | list _ ih =>
    obtain ⟨text, written, plain⟩ := ih
    exact ⟨applied qualified "ListType" [text], by simp [tyText?, written],
      plain_list qualified plain⟩
  | set _ ih =>
    obtain ⟨text, written, plain⟩ := ih
    exact ⟨applied qualified "SetType" [text], by simp [tyText?, written],
      plain_set qualified plain⟩
  | map _ _ ihKey ihValue =>
    obtain ⟨key, keyWritten, keyPlain⟩ := ihKey
    obtain ⟨value, valueWritten, valuePlain⟩ := ihValue
    exact ⟨applied qualified "MapType" [key, value],
      by simp [tyText?, keyWritten, valueWritten], plain_map qualified keyPlain valuePlain⟩
  | @tuple ts nonempty _ ih =>
    obtain ⟨t, ts, rfl⟩ := List.exists_cons_of_ne_nil nonempty
    obtain ⟨⟨text, here, plain⟩, others⟩ := List.forall_mem_cons.mp ih
    obtain ⟨texts, rest, all⟩ := exists_texts others
    exact ⟨applied qualified "TupleType" (text :: texts), by simp [tyText?, here, rest],
      plain_tuple qualified (.cons plain all)⟩

end Types

section Wrappers

variable {text : String} {term : Term}

theorem spells_wrapped (qualified : Bool) (wrapper : Wrapper) (spelled : Spells text.toList term) :
    Spells (applied qualified wrapper.className [text]).toList (.wrapped wrapper term) := by
  have word : ClassWord _ wrapper.className :=
    classWord_classText qualified (by cases wrapper <;> decide)
  rw [toList_applied_one]
  exact .class word (.wrapped wrapper (mark_self '(') spelled (mark_self ')'))

theorem exists_around_frozen (qualified frozen : Bool) {t : Ty} (plain : Plain text t) :
    ∃ term, Spells (around qualified frozen .frozen text).toList term ∧ term.erased = t ∧
      term.isReversed = false ∧ term.isFrozen = frozen := by
  obtain ⟨term, spelled, rfl, straight, loose⟩ := plain
  cases frozen with
  | false => exact ⟨term, spelled, rfl, straight, loose⟩
  | true => exact ⟨_, spells_wrapped qualified .frozen spelled, rfl, rfl, rfl⟩

theorem isFrozen_reversed (straight : term.isReversed = false) :
    (Term.wrapped .reversed term).isFrozen = term.isFrozen := by
  cases term with
  | wrapped wrapper => cases wrapper <;> trivial
  | _ => rfl

theorem exists_around_reversed (qualified reversed : Bool) (spelled : Spells text.toList term)
    (straight : term.isReversed = false) :
    ∃ outer, Spells (around qualified reversed .reversed text).toList outer ∧
      outer.erased = term.erased ∧ outer.isReversed = reversed ∧
        outer.isFrozen = term.isFrozen := by
  cases reversed with
  | false => exact ⟨term, spelled, rfl, straight, rfl⟩
  | true =>
    exact ⟨_, spells_wrapped qualified .reversed spelled, rfl, rfl, isFrozen_reversed straight⟩

theorem parse_of_spells {input : String} (spelled : Spells input.toList term) :
    parse input = .ok ⟨term.erased, term.isReversed, term.isFrozen⟩ := by
  have read : reader (input.toList ++ []) = .ok (_, []) :=
    reader_of_spells spelled (Phrase.continues_blank nofun)
  rw [List.append_nil] at read
  exact Phrase.whole_eq_ok_iff.mpr ⟨[], read, nofun⟩

end Wrappers

/-- Every type with a class has a validator for each order and frozenness, and reading it gives back
all three. -/
theorem parse_text (qualified : Bool) {v : Validator} (classed : Classed v.ty) :
    ∃ text, v.text? qualified = some text ∧ parse text = .ok v := by
  obtain ⟨t, reversed, frozen⟩ := v
  obtain ⟨text, written, plain⟩ := exists_tyText qualified classed
  obtain ⟨inner, spelled, rfl, straight, rfl⟩ := exists_around_frozen qualified frozen plain
  obtain ⟨outer, spelled, same, rfl, loose⟩ :=
    exists_around_reversed qualified reversed spelled straight
  refine ⟨around qualified outer.isReversed .reversed
    (around qualified inner.isFrozen .frozen text), ?_, ?_⟩
  · simp only [text?, written, Option.map_some]
  · rw [parse_of_spells spelled, same, loose]

theorem parse_of_text {qualified : Bool} {v : Validator} {text : String} (classed : Classed v.ty)
    (written : v.text? qualified = some text) : parse text = .ok v := by
  obtain ⟨own, same, read⟩ := parse_text qualified classed
  obtain rfl : own = text := Option.some.inj (same.symm.trans written)
  exact read

end Validator

end Cql
