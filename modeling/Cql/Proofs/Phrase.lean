import Cql.Proofs.Outcome
import Cql.Proofs.Reader

/-!
Phrases: which texts mean what, said by how the texts are put together and not by how they are
read. Marks and lists between marks are read as such phrases, and whatever is such a phrase is read,
if nothing follows that would go on with it.
-/

namespace Cql

/-- Which texts mean what. -/
abbrev Phrase (α : Type) := List Char → α → Prop

section Blanks

variable {s t : List Char}

def Blank (s : List Char) : Prop := ∀ c ∈ s, isBlank c

theorem trimStart_blank_append (blank : Blank s) : trimStart (s ++ t) = trimStart t :=
  List.dropWhile_append_of_pos blank

theorem trimStart_blank (blank : Blank s) : trimStart s = [] :=
  List.dropWhile_eq_nil_iff.mpr blank

theorem exists_blank_append_trimStart (s : List Char) :
    ∃ blanks, Blank blanks ∧ s = blanks ++ trimStart s :=
  ⟨s.takeWhile isBlank, fun _ h => List.mem_takeWhile_imp h, List.takeWhile_append_dropWhile.symm⟩

theorem trimStart_append {c : Char} {rest : List Char} (trimmed : trimStart s = c :: rest) :
    trimStart (s ++ t) = c :: (rest ++ t) := by
  unfold trimStart at *
  simp [List.dropWhile_append, trimmed]

theorem head_of_trimStart {P : Char → Prop} (blanks : ∀ c, isBlank c → P c)
    (first : ∀ c ∈ (trimStart s).head?, P c) : ∀ c ∈ s.head?, P c := by
  intro c head
  cases blank : isBlank c
  · obtain ⟨t, rfl⟩ := List.head?_eq_some_iff.mp head
    apply first
    rw [trimStart_cons blank]
    exact head
  · exact blanks c blank

theorem blank_of_trimStart_eq_nil (h : trimStart s = []) : Blank s :=
  List.dropWhile_eq_nil_iff.mp h

end Blanks

namespace Phrase

def Mark (c : Char) (s : List Char) : Prop := ∃ blanks, Blank blanks ∧ s = blanks ++ [c]

variable {α : Type}

inductive Items (item : Phrase α) (closing : Char) : Phrase (List α)
  | last {s c : List Char} {x : α} (first : item s x) (closed : Mark closing c) :
      Items item closing (s ++ c) [x]
  | more {s c u : List Char} {x : α} {xs : List α} (first : item s x) (comma : Mark ',' c)
      (others : Items item closing u xs) : Items item closing (s ++ c ++ u) (x :: xs)

inductive Listing (item : Phrase α) (closing : Char) : Phrase (List α)
  | none {c : List Char} (closed : Mark closing c) : Listing item closing c []
  | some {s : List Char} {xs : List α} (items : Items item closing s xs) :
      Listing item closing s xs

/-- Whatever the reader takes off the front of a text is a phrase. -/
def Sound (phrase : Phrase α) (reader : Reader α) : Prop :=
  ∀ {s : List Char} {x : α} {rest : List Char}, reader s = .ok (x, rest) →
    ∃ u, s = u ++ rest ∧ phrase u x

/-- The reader takes every phrase of at most that size off the front of what it stands before, if
that may follow it. -/
def Complete (phrase : Phrase α) (follows : List Char → Prop) (size : Nat) (reader : Reader α) :
    Prop :=
  ∀ {u : List Char} {x : α}, phrase u x → u.length ≤ size →
    ∀ {rest : List Char}, follows rest → reader (u ++ rest) = .ok (x, rest)

def Continues (closing : Char) (rest : List Char) : Prop :=
  ∀ c ∈ (trimStart rest).head?, c = ',' ∨ c = closing

section Marks

variable {c d : Char} {m s rest : List Char}

theorem trimStart_mark (solid : isBlank c = false) (mark : Mark c m) :
    trimStart (m ++ rest) = c :: rest := by
  obtain ⟨blanks, blank, rfl⟩ := mark
  rw [List.append_assoc, trimStart_blank_append blank]
  exact trimStart_cons solid

theorem eat?_mark (solid : isBlank c = false) (mark : Mark c m) :
    Reader.eat? c (m ++ rest) = some rest := by
  unfold Reader.eat?
  rw [trimStart_mark solid mark]
  exact if_pos rfl

theorem eat?_of_trimStart {t : List Char} (trimmed : trimStart s = d :: t) (other : d ≠ c) :
    Reader.eat? c s = none := by
  unfold Reader.eat?
  rw [trimmed]
  exact if_neg other

theorem exists_mark_of_eat? (h : Reader.eat? c s = some rest) : ∃ m, s = m ++ rest ∧ Mark c m := by
  obtain ⟨blanks, blank, split⟩ := exists_blank_append_trimStart s
  unfold Reader.eat? at h
  cases trimmed : trimStart s with
  | nil => simp [trimmed] at h
  | cons d t =>
    obtain ⟨rfl, rfl⟩ : d = c ∧ t = rest := by simpa [trimmed] using h
    refine ⟨blanks ++ [d], ?_, blanks, blank, rfl⟩
    rw [split, trimmed]
    simp

theorem expect_eq_ok_iff : Reader.expect c s = .ok rest ↔ Reader.eat? c s = some rest := by
  unfold Reader.expect
  cases Reader.eat? c s <;> simp

theorem expect_mark (solid : isBlank c = false) (mark : Mark c m) :
    Reader.expect c (m ++ rest) = .ok rest := expect_eq_ok_iff.mpr (eat?_mark solid mark)

theorem exists_mark_of_expect (h : Reader.expect c s = .ok rest) :
    ∃ m, s = m ++ rest ∧ Mark c m := exists_mark_of_eat? (expect_eq_ok_iff.mp h)

theorem continues_comma {closing : Char} (mark : Mark ',' m) : Continues closing (m ++ rest) := by
  unfold Continues
  simp [trimStart_mark rfl mark]

theorem continues_closing (solid : isBlank c = false) (mark : Mark c m) :
    Continues c (m ++ rest) := by
  unfold Continues
  simp [trimStart_mark solid mark]

theorem continues_blank {closing : Char} (blank : Blank rest) : Continues closing rest := by
  unfold Continues
  simp [trimStart_blank blank]

theorem eat?_of_continues {closing : Char} (continues : Continues closing rest) (comma : ',' ≠ c)
    (close : closing ≠ c) : Reader.eat? c rest = none := by
  cases trimmed : trimStart rest with
  | nil => simp [Reader.eat?, trimmed]
  | cons d t =>
    apply eat?_of_trimStart trimmed
    rcases continues d (by simp [trimmed]) with rfl | rfl
    · exact comma
    · exact close

theorem length_pos_of_mark (mark : Mark c m) : 0 < m.length := by
  obtain ⟨blanks, -, rfl⟩ := mark
  simp

end Marks

section Lists

variable {item : Reader α} {phrase : Phrase α} {closing : Char} {fuel size : Nat}
  {s rest : List Char} {x : α} {xs : List α}

theorem sound_items (sound : Sound phrase item) :
    Sound (Items phrase closing) (Reader.items item closing fuel) := by
  intro s xs rest h
  induction fuel generalizing s xs rest with
  | zero => contradiction
  | succ fuel ih =>
    rw [Reader.items] at h
    obtain ⟨⟨x, t⟩, first, left⟩ := bind_eq_ok_iff.mp h
    obtain ⟨u, rfl, meaning⟩ := sound first
    cases closed : Reader.eat? closing t with
    | some v =>
      simp only [closed] at left
      obtain ⟨rfl, rfl⟩ : [x] = xs ∧ v = rest := by simpa [pure, Except.pure] using left
      obtain ⟨m, rfl, mark⟩ := exists_mark_of_eat? closed
      exact ⟨u ++ m, (List.append_assoc ..).symm, .last meaning mark⟩
    | none =>
      simp only [closed] at left
      obtain ⟨v, comma, left⟩ := bind_eq_ok_iff.mp left
      obtain ⟨⟨ys, w⟩, others, done⟩ := bind_eq_ok_iff.mp left
      obtain ⟨rfl, rfl⟩ : x :: ys = xs ∧ w = rest := by simpa [pure, Except.pure] using done
      obtain ⟨m, rfl, mark⟩ := exists_mark_of_expect comma
      obtain ⟨w', rfl, meanings⟩ := ih others
      exact ⟨u ++ m ++ w', by simp, .more meaning mark meanings⟩

theorem sound_list (sound : Sound phrase item) :
    Sound (Listing phrase closing) (Reader.list item closing) := by
  intro s xs rest h
  unfold Reader.list at h
  cases closed : Reader.eat? closing s with
  | some t =>
    obtain ⟨rfl, rfl⟩ : [] = xs ∧ t = rest := by simpa [closed] using h
    obtain ⟨m, split, mark⟩ := exists_mark_of_eat? closed
    exact ⟨m, split, .none mark⟩
  | none =>
    simp only [closed] at h
    obtain ⟨u, split, meanings⟩ := sound_items sound h
    exact ⟨u, split, .some meanings⟩

variable (solid : isBlank closing = false) (other : ',' ≠ closing)
  (complete : Complete phrase (Continues closing) size item)
include solid other complete

/-- Every comma takes up some of the text, so that there are no more items than characters. -/
theorem items_of_phrase (items : Items phrase closing s xs) (short : s.length ≤ size)
    (enough : s.length ≤ fuel) : Reader.items item closing fuel (s ++ rest) = .ok (xs, rest) := by
  induction items generalizing fuel with
  | @last s c x first closed =>
    have long := length_pos_of_mark closed
    rw [List.length_append] at short enough
    obtain ⟨fuel, rfl⟩ := Nat.exists_eq_add_one_of_ne_zero (by omega : fuel ≠ 0)
    rw [List.append_assoc]
    exact Reader.items_last (complete first (by omega) (continues_closing solid closed))
      (eat?_mark solid closed)
  | @more s c u x xs first comma _ ih =>
    have long := length_pos_of_mark comma
    rw [List.length_append, List.length_append] at short enough
    obtain ⟨fuel, rfl⟩ := Nat.exists_eq_add_one_of_ne_zero (by omega : fuel ≠ 0)
    rw [List.append_assoc, List.append_assoc]
    exact Reader.items_more (complete first (by omega) (continues_comma comma))
      (eat?_of_trimStart (trimStart_mark rfl comma) other) (expect_mark rfl comma)
      (ih (by omega) (by omega))

/-- The length of what is left is as much fuel as there can be need for. -/
theorem items_with_length (items : Items phrase closing s xs) (short : s.length ≤ size) :
    Reader.items item closing ((s ++ rest).length + 1) (s ++ rest) = .ok (xs, rest) := by
  apply items_of_phrase solid other complete items short
  rw [List.length_append]
  omega

theorem list_of_phrase
    (opens : ∀ {u : List Char} {x : α}, phrase u x → ∃ c t, trimStart u = c :: t ∧ c ≠ closing)
    (listing : Listing phrase closing s xs) (short : s.length ≤ size) :
    Reader.list item closing (s ++ rest) = .ok (xs, rest) := by
  unfold Reader.list
  cases listing with
  | none closed => rw [eat?_mark solid closed]
  | some items =>
    have opened : ∃ c t, trimStart s = c :: t ∧ c ≠ closing := by
      cases items with
      | last first _ =>
        obtain ⟨c, t, trimmed, open'⟩ := opens first
        exact ⟨c, _, trimStart_append trimmed, open'⟩
      | more first _ _ =>
        obtain ⟨c, t, trimmed, open'⟩ := opens first
        exact ⟨c, _, trimStart_append (trimStart_append trimmed), open'⟩
    obtain ⟨c, t, trimmed, open'⟩ := opened
    rw [eat?_of_trimStart (trimStart_append trimmed) open']
    exact items_with_length solid other complete items short

end Lists

section Map

variable {β : Type}

def map (f : α → β) (phrase : Phrase α) : Phrase β := fun s y => ∃ x, phrase s x ∧ f x = y

theorem items_map (f : α → β) (phrase : Phrase α) (closing : Char) :
    Items (map f phrase) closing = map (List.map f) (Items phrase closing) := by
  funext s ys
  apply propext
  constructor
  · intro items
    induction items with
    | last first closed =>
      obtain ⟨x, first, rfl⟩ := first
      exact ⟨[x], .last first closed, rfl⟩
    | more first comma _ ih =>
      obtain ⟨x, first, rfl⟩ := first
      obtain ⟨xs, others, rfl⟩ := ih
      exact ⟨x :: xs, .more first comma others, rfl⟩
  · rintro ⟨xs, items, rfl⟩
    induction items with
    | last first closed => exact .last ⟨_, first, rfl⟩ closed
    | more first comma _ ih => exact .more ⟨_, first, rfl⟩ comma ih

end Map

/-- A whole text is read if the reader leaves nothing but blanks. -/
theorem whole_eq_ok_iff {reader : Reader α} {g : Grammar} {input : String} {x : α} :
    Reader.whole g reader input = .ok x ↔
      ∃ rest, reader input.toList = .ok (x, rest) ∧ Blank rest := by
  unfold Reader.whole
  cases reader input.toList with
  | error stop => simp
  | ok done =>
    obtain ⟨y, rest⟩ := done
    cases trimmed : trimStart rest with
    | nil =>
      have blank := blank_of_trimStart_eq_nil trimmed
      simp [trimmed, blank]
    | cons c t =>
      have solid : ¬ Blank rest := by
        intro blank
        rw [trimStart_blank blank] at trimmed
        contradiction
      simp [trimmed, solid]

end Phrase

end Cql
