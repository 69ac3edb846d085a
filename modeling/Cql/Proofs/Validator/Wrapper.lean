import Cql.Proofs.Validator.Grammar

/-!
The outermost wrappers of a validator. At most one of each sort is taken off and remembered, the
reversing one around the freezing one; whatever wrappers are left are read with the type within
them. A text is read as a validator exactly if it spells a term.
-/

namespace Cql

namespace Validator

open Phrase (Mark Sound Continues)

namespace Term

def isReversed : Term → Bool
  | .wrapped .reversed _ => true
  | _ => false

/-- Whether the outermost class is the freezing one, or the reversing one directly around it. -/
def isFrozen : Term → Bool
  | .wrapped .frozen _ => true
  | .wrapped .reversed (.wrapped .frozen _) => true
  | _ => false

def unwrapped (wrapper : Wrapper) : Term → Bool × Term
  | .wrapped w t => if w = wrapper then (true, t) else (false, .wrapped w t)
  | t => (false, t)

/-- First the reversing wrapper and then the freezing one are taken off. -/
theorem eq_of_unwrapped {t u v : Term} {reversed frozen : Bool}
    (outer : t.unwrapped .reversed = (reversed, u)) (inner : u.unwrapped .frozen = (frozen, v)) :
    v.erased = t.erased ∧ t.isReversed = reversed ∧ t.isFrozen = frozen := by
  cases t with
  | wrapped w t =>
    cases w with
    | frozen =>
      cases outer
      cases inner
      exact ⟨rfl, rfl, rfl⟩
    | reversed =>
      cases outer
      cases u with
      | wrapped w u =>
        cases w <;> cases inner <;> exact ⟨rfl, rfl, rfl⟩
      | _ =>
        cases inner
        exact ⟨rfl, rfl, rfl⟩
  | _ =>
    cases outer
    cases inner
    exact ⟨rfl, rfl, rfl⟩

end Term

def Derives (input : String) (t : Term) : Prop :=
  ∃ s blanks, Blank blanks ∧ input.toList = s ++ blanks ∧ Spells s t

section Wrappers

variable {wrapper : Wrapper} {wrapped : Bool} {c₀ c₁ : String} {r₀ r₁ r₂ u v rest : List Char}
  {t t₀ t₁ : Term}

theorem unwrapped_of_parameters (parameters : Parameters Spells c₀ u t)
    (other : c₀ ≠ wrapper.className) : t.unwrapped wrapper = (false, t) := by
  cases parameters with
  | wrapped w =>
    have differ : w ≠ wrapper := fun same => other (congrArg Wrapper.className same)
    simp only [Term.unwrapped, differ, if_false]
  | _ => rfl

theorem exists_of_wrapper (parameters : Parameters Spells c₀ u t) (same : c₀ = wrapper.className) :
    ∃ o v c inner, u = o ++ v ++ c ∧ Mark '(' o ∧ Spells v inner ∧ Mark ')' c ∧
      t = .wrapped wrapper inner := by
  cases parameters with
  | scalar known =>
    rw [same] at known
    cases wrapper <;> contradiction
  | @wrapped w o v c inner opening element closing =>
    obtain rfl : w = wrapper := by cases w <;> cases wrapper <;> first | rfl | contradiction
    exact ⟨o, v, c, inner, rfl, opening, element, closing, rfl⟩
  | _ => cases wrapper <;> contradiction

theorem exists_of_unwrap (wrapper : Wrapper)
    (opened : unwrap wrapper.className c₀ r₀ = .ok (wrapped, c₁, v ++ r₂))
    (parameters : Parameters Spells c₁ v t₁) (closed : close wrapped r₂ = .ok rest) :
    ∃ u t₀, r₀ = u ++ rest ∧ Parameters Spells c₀ u t₀ ∧ t₀.unwrapped wrapper = (wrapped, t₁) := by
  unfold unwrap at opened
  split at opened
  · obtain ⟨q, opening, left⟩ := bind_eq_ok_iff.mp opened
    obtain ⟨⟨c, r⟩, first, same⟩ := bind_eq_ok_iff.mp left
    obtain ⟨rfl, rfl, rfl⟩ : true = wrapped ∧ c = c₁ ∧ r = v ++ r₂ := by
      simpa [pure, Except.pure] using same
    obtain ⟨m, rfl, mark⟩ := Phrase.exists_mark_of_expect opening
    obtain ⟨w, rfl, word⟩ := sound_classReader first
    obtain ⟨m', rfl, mark'⟩ := Phrase.exists_mark_of_expect closed
    subst c₀
    refine ⟨m ++ (w ++ v) ++ m', .wrapped wrapper t₁, by simp,
      .wrapped wrapper mark (.class word parameters) mark', ?_⟩
    simp only [Term.unwrapped, if_true]
  · rename_i other
    obtain ⟨rfl, rfl, rfl⟩ : false = wrapped ∧ c₀ = c₁ ∧ r₀ = v ++ r₂ := by
      simpa [pure, Except.pure] using opened
    obtain rfl := Except.ok.inj closed
    exact ⟨v, t₁, rfl, parameters, unwrapped_of_parameters parameters other⟩

theorem sound_reader :
    Sound (Phrase.map (fun t => (⟨t.erased, t.isReversed, t.isFrozen⟩ : Validator)) Spells)
      reader := by
  intro s validator rest h
  unfold reader at h
  obtain ⟨⟨c₀, r₀⟩, first, h⟩ := bind_eq_ok_iff.mp h
  obtain ⟨⟨reversed, c₁, r₁⟩, outer, h⟩ := bind_eq_ok_iff.mp h
  obtain ⟨⟨frozen, c₂, r₂⟩, inner, h⟩ := bind_eq_ok_iff.mp h
  obtain ⟨⟨ty, r₃⟩, body, h⟩ := bind_eq_ok_iff.mp h
  obtain ⟨r₄, closeInner, h⟩ := bind_eq_ok_iff.mp h
  obtain ⟨r₅, closeOuter, done⟩ := bind_eq_ok_iff.mp h
  obtain ⟨rfl, rfl⟩ : (⟨ty, reversed, frozen⟩ : Validator) = validator ∧ r₅ = rest := by
    simpa [pure, Except.pure] using done
  -- From the innermost class outwards: each wrapper goes around what has been put together.
  obtain ⟨u₂, t₂, rfl, parameters, rfl⟩ := exists_of_bodyReader (sound_tyReader _) body
  obtain ⟨u₁, t₁, rfl, parameters, within⟩ := exists_of_unwrap .frozen inner parameters closeInner
  obtain ⟨u₀, t₀, rfl, parameters, around⟩ := exists_of_unwrap .reversed outer parameters closeOuter
  obtain ⟨w, rfl, word⟩ := sound_classReader first
  obtain ⟨erased, rfl, rfl⟩ := Term.eq_of_unwrapped around within
  exact ⟨w ++ u₀, by simp, t₀, .class word parameters, by rw [erased]⟩

/-- A wrapper is taken off, if the term begins with it, so that what is left is closed as it was
opened. -/
theorem unwrap_of_parameters (wrapper : Wrapper) (parameters : Parameters Spells c₀ u t)
    (after : Continues ')' rest) :
    ∃ c₁ v r, unwrap wrapper.className c₀ (u ++ rest) =
        .ok ((t.unwrapped wrapper).1, c₁, v ++ r) ∧
      Parameters Spells c₁ v (t.unwrapped wrapper).2 ∧ Continues ')' r ∧
        close (t.unwrapped wrapper).1 r = .ok rest ∧ v.length ≤ u.length := by
  by_cases same : c₀ = wrapper.className
  · obtain ⟨o, _, c, inner, rfl, opening, @⟨w, v, c₁, _, word, within⟩, closing, rfl⟩ :=
      exists_of_wrapper parameters same
    have first : Reader.expect '(' (o ++ (w ++ v ++ (c ++ rest))) = .ok _ :=
      Phrase.expect_mark rfl opening
    have behind : Continues ')' (c ++ rest) := Phrase.continues_closing rfl closing
    have second := classReader_of_parameters word within behind
    have third : Reader.expect ')' (c ++ rest) = .ok rest := Phrase.expect_mark rfl closing
    simp only [Term.unwrapped, if_true]
    refine ⟨c₁, v, c ++ rest, ?_, within, behind, third, ?_⟩
    · rw [List.append_assoc, List.append_assoc]
      simp only [unwrap, same, if_true, first, second, bind, Except.bind, pure, Except.pure]
    · simp only [List.length_append]
      omega
  · rw [unwrapped_of_parameters parameters same]
    refine ⟨c₀, u, rest, ?_, parameters, after, rfl, le_rfl⟩
    unfold unwrap
    rw [if_neg same]
    rfl

theorem reader_of_spells {s : List Char} (spells : Spells s t) (after : Continues ')' rest) :
    reader (s ++ rest) = .ok (⟨t.erased, t.isReversed, t.isFrozen⟩, rest) := by
  obtain @⟨w, u, c₀, t, word, parameters⟩ := spells
  have first := classReader_of_parameters word parameters after
  obtain ⟨c₁, v₁, r₁, outer, parameters, behind, closeOuter, less⟩ :=
    unwrap_of_parameters .reversed parameters after
  obtain ⟨c₂, v₂, r₂, inner, parameters, -, closeInner, still⟩ :=
    unwrap_of_parameters .frozen parameters behind
  obtain ⟨erased, reversed, frozen⟩ :=
    Term.eq_of_unwrapped (Prod.mk.eta (p := t.unwrapped .reversed)).symm
      (Prod.mk.eta (p := (t.unwrapped .reversed).2.unwrapped .frozen)).symm
  have short : v₂.length ≤ (w ++ u ++ rest).length := by
    simp only [List.length_append]
    omega
  have body := bodyReader_of_parameters (complete_tyReader _) parameters short r₂
  simp only [Wrapper.className] at outer inner
  simp only [reader, first, outer, inner, body, closeInner, closeOuter, bind, Except.bind, pure,
    Except.pure, erased, reversed, frozen]

end Wrappers

/-- A text is read as a validator exactly if it spells a term, with or without blanks at its end,
and what is read is the type of the term without any of its wrappers, reversed if the outermost
class is the reversing wrapper, and frozen if it is the freezing one or the reversing one directly
around it. -/
theorem parse_eq_ok_iff_derives (input : String) (validator : Validator) :
    parse input = .ok validator ↔
      ∃ t, Derives input t ∧ validator = ⟨t.erased, t.isReversed, t.isFrozen⟩ := by
  unfold parse
  rw [Phrase.whole_eq_ok_iff]
  constructor
  · rintro ⟨rest, read, blank⟩
    obtain ⟨s, split, t, spells, meaning⟩ := sound_reader read
    exact ⟨t, ⟨s, rest, blank, split, spells⟩, meaning.symm⟩
  · rintro ⟨t, ⟨s, blanks, blank, split, spells⟩, rfl⟩
    refine ⟨blanks, ?_, blank⟩
    rw [split]
    exact reader_of_spells spells (Phrase.continues_blank blank)

/-- The freezing wrapper counts directly within the reversing one, not the other way round, and
deeper within a term neither counts. -/
theorem parse_eq_ok_iff_derives_nested :
    let outer := " ReversedType ( FrozenType(MapType(UTF8Type,\tReversedType(" ++
      "UserType(k.s , 61,C3a9 : Int32Type))))) \n"
    let inner := "FrozenType(ReversedType(TupleType(" ++ package ++ "DateType)))"
    let named : Ty := .user (some ⟨some "k.s", "a"⟩) [("é", .scalar .int)]
    (∃ t, Derives outer t ∧ t.erased = .map (.scalar .text) named ∧ t.isReversed ∧ t.isFrozen) ∧
      ∃ t, Derives inner t ∧ t.erased = .tuple [.scalar .timestamp] ∧ t.isReversed = false ∧
        t.isFrozen := by
  intro outer inner named
  have first : parse outer = .ok ⟨.map (.scalar .text) named, true, true⟩ := by
    subst outer inner named
    rfl
  have second : parse inner = .ok ⟨.tuple [.scalar .timestamp], false, true⟩ := by
    subst outer inner named
    rfl
  obtain ⟨t, derived, same⟩ := (parse_eq_ok_iff_derives outer _).mp first
  obtain ⟨u, derived', same'⟩ := (parse_eq_ok_iff_derives inner _).mp second
  obtain ⟨erased, reversed, frozen⟩ := Validator.mk.inj same
  obtain ⟨erased', reversed', frozen'⟩ := Validator.mk.inj same'
  exact ⟨⟨t, derived, erased.symm, reversed.symm, frozen.symm⟩, u, derived', erased'.symm,
    reversed'.symm, frozen'.symm⟩

/-- Blanks at the end of a text are passed over as well, so that a grammar with blanks before tokens
alone is not the grammar of validators. -/
theorem parse_blank_at_end :
    parse "Int32Type " = .ok ⟨.scalar .int, false, false⟩ ∧
      ¬ ∃ t, Spells "Int32Type ".toList t := by
  refine ⟨rfl, ?_⟩
  rintro ⟨t, spells⟩
  have whole : reader ("Int32Type ".toList ++ []) = .ok (_, []) :=
    reader_of_spells spells (Phrase.continues_blank nofun)
  have short : reader ("Int32Type ".toList ++ []) = .ok (⟨.scalar .int, false, false⟩, [' ']) := rfl
  rw [short] at whole
  simp at whole

end Validator

end Cql
