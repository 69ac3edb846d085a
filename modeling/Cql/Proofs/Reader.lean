import Cql.Reader
import Cql.Text.Alphanumeric
import Cql.Text.Enclosed
import Cql.Proofs.Outcome
import Mathlib.Data.List.TakeWhile
import Mathlib.Tactic

/-!
Reading what has been written. A text reads as a value if a reader that finds the text in front of
anything that can follow it gives the value and leaves what follows. Items that read as values make
up lists that read as lists of these values.
-/

namespace Cql

section Runs

variable {α : Type} {p : α → Bool} {run rest : List α}

theorem takeWhile_run (within : ∀ x ∈ run, p x) (stop : ∀ x ∈ rest.head?, p x = false) :
    (run ++ rest).takeWhile p = run := by
  rw [List.takeWhile_append_of_pos within]
  cases rest with
  | nil => exact List.append_nil run
  | cons x rest => simp [stop x rfl]

theorem dropWhile_run (within : ∀ x ∈ run, p x) (stop : ∀ x ∈ rest.head?, p x = false) :
    (run ++ rest).dropWhile p = rest := by
  rw [List.dropWhile_append_of_pos within]
  cases rest with
  | nil => rfl
  | cons x rest => simp [stop x rfl]

/-- Two lists that are the same are split in the same way at a mark that each of them has, unless
the mark is there once more on the way from the one to the other. -/
theorem split_at_mark {mark : α} {a b c d : List α} (left : mark ∉ a ∨ mark ∉ d)
    (right : mark ∉ c ∨ mark ∉ b) (h : a ++ mark :: b = c ++ mark :: d) : a = c ∧ b = d := by
  rcases List.append_eq_append_iff.mp h with ⟨m, rfl, rest⟩ | ⟨m, rfl, rest⟩
  · cases m with
    | nil => simpa using rest
    | cons x m =>
      obtain ⟨rfl, rfl⟩ := List.cons.inj rest
      simp at right
  · cases m with
    | nil => simpa [eq_comm] using rest
    | cons x m =>
      obtain ⟨rfl, rfl⟩ := List.cons.inj rest
      simp at left

end Runs

section Blanks

variable {c : Char} {s : List Char}

theorem trimStart_cons (solid : isBlank c = false) : trimStart (c :: s) = c :: s := by
  simp [trimStart, solid]

theorem trim_of_solid (solid : ∀ c ∈ s, isBlank c = false) : trim s = s := by
  have whole (s : List Char) (solid : ∀ c ∈ s, isBlank c = false) : s.dropWhile isBlank = s := by
    cases s with
    | nil => rfl
    | cons c s => exact trimStart_cons (solid c List.mem_cons_self)
  unfold trim trimStart trimEnd
  rw [whole s solid, whole s.reverse (fun c h => solid c (List.mem_reverse.mp h)),
    List.reverse_reverse]

end Blanks

theorem utf8Length_append (s t : List Char) :
    utf8Length (s ++ t) = utf8Length s + utf8Length t := by
  induction s with
  | nil => simp [utf8Length]
  | cons c s ih => simp [utf8Length, ih, Nat.add_assoc]

section Characters

variable {c : Char}

def blanks : List Nat :=
  [0x09, 0x0a, 0x0b, 0x0c, 0x0d, 0x20, 0x85, 0xa0, 0x1680, 0x2000, 0x2001, 0x2002, 0x2003, 0x2004,
    0x2005, 0x2006, 0x2007, 0x2008, 0x2009, 0x200a, 0x2028, 0x2029, 0x202f, 0x205f, 0x3000]

theorem toNat_mem_blanks (h : isBlank c) : c.toNat ∈ blanks := by
  simp only [isBlank, Bool.or_eq_true, Bool.and_eq_true, decide_eq_true_eq, beq_iff_eq] at h
  simp only [blanks, List.mem_cons, List.not_mem_nil]
  omega

theorem isAlphanumeric_of_mem_blanks : ∀ n ∈ blanks, isAlphanumeric (Char.ofNat n) = false := by
  decide +kernel

theorem isBlank_of_isAlphanumeric (h : isAlphanumeric c) : isBlank c = false := by
  by_contra blank
  have other := isAlphanumeric_of_mem_blanks c.toNat (toNat_mem_blanks (by simpa using blank))
  rw [Char.ofNat_toNat, h] at other
  contradiction

theorem isAlphanum_of_isDigit (digit : c.isDigit) : c.isAlphanum := by
  simp [Char.isAlphanum, digit]

end Characters

namespace Reader

section Marks

variable {c d : Char} {s : List Char}

theorem eat?_self (solid : isBlank c = false) : eat? c (c :: s) = some s := by
  unfold eat?
  rw [trimStart_cons solid]
  exact if_pos rfl

theorem eat?_other (solid : isBlank d = false) (other : d ≠ c) : eat? c (d :: s) = none := by
  unfold eat?
  rw [trimStart_cons solid]
  exact if_neg other

theorem expect_self (solid : isBlank c = false) : expect c (c :: s) = .ok s := by
  unfold expect
  rw [eat?_self solid]

end Marks

section Quotes

variable {quote : Char} {s rest text : List Char}

theorem quoted_cons {c : Char} (other : c ≠ quote) (read : quoted quote s = .ok (text, rest)) :
    quoted quote (c :: s) = .ok (c :: text, rest) := by
  cases s with
  | nil => contradiction
  | cons d s =>
    rw [quoted, if_neg other, read]
    rfl

theorem quoted_doubled (text : List Char) (apart : rest.head? ≠ some quote) :
    quoted quote (doubled quote text ++ quote :: rest) = .ok (text, rest) := by
  induction text with
  | nil =>
    cases rest with
    | nil => exact if_pos rfl
    | cons d rest =>
      have other : d ≠ quote := by simpa using apart
      rw [doubled, List.nil_append, quoted, if_pos rfl, if_neg other]
  | cons c text ih =>
    by_cases same : c = quote
    · subst same
      simp only [doubled, if_true, List.cons_append, quoted, ih]
      rfl
    · rw [doubled, if_neg same]
      exact quoted_cons same ih

theorem split_of_quoted (h : quoted quote s = .ok (text, rest)) :
    s = doubled quote text ++ quote :: rest ∧ rest.head? ≠ some quote := by
  fun_induction quoted quote s generalizing text with
  | case1 | case3 => contradiction
  | case2 =>
    obtain ⟨rfl, rfl⟩ : [] = text ∧ [] = rest := by simpa using h
    exact ⟨rfl, by simp⟩
  | case4 s ih =>
    obtain ⟨⟨u, v⟩, within, same⟩ := bind_eq_ok_iff.mp h
    obtain ⟨rfl, rfl⟩ : quote :: u = text ∧ v = rest := by simpa [pure, Except.pure] using same
    obtain ⟨split, apart⟩ := ih within
    exact ⟨by rw [doubled, if_pos rfl, split]; rfl, apart⟩
  | case5 d s other =>
    obtain ⟨rfl, rfl⟩ : [] = text ∧ d :: s = rest := by simpa using h
    exact ⟨rfl, by simpa using other⟩
  | case6 c d s other ih =>
    obtain ⟨⟨u, v⟩, within, same⟩ := bind_eq_ok_iff.mp h
    obtain ⟨rfl, rfl⟩ : c :: u = text ∧ v = rest := by simpa [pure, Except.pure] using same
    obtain ⟨split, apart⟩ := ih within
    exact ⟨by rw [doubled, if_neg other, split]; rfl, apart⟩

/-- The text ends at the first quote that is not one of two. -/
theorem quoted_eq_ok_iff :
    quoted quote s = .ok (text, rest) ↔
      s = doubled quote text ++ quote :: rest ∧ rest.head? ≠ some quote := by
  constructor
  · exact split_of_quoted
  · rintro ⟨rfl, apart⟩
    exact quoted_doubled text apart

end Quotes

variable {α β : Type}

/-- In front of anything that starts with a character of `stop`, the text is read as `x`. -/
def Reads (stop : Char → Bool) (reader : Reader α) (text : List Char) (x : α) : Prop :=
  ∀ rest : List Char, (∀ c ∈ rest.head?, stop c) → reader (text ++ rest) = .ok (x, rest)

def SkipsBlank (reader : Reader α) : Prop := ∀ s, reader (' ' :: s) = reader s

section Lists

variable {item : Reader α} {closing : Char} {fuel : Nat} {x : α} {xs : List α}
  {s t u v : List Char}

theorem items_last (first : item s = .ok (x, t)) (closed : eat? closing t = some u) :
    items item closing (fuel + 1) s = .ok ([x], u) := by
  simp only [items, first, bind, Except.bind, closed, pure, Except.pure]

theorem items_more (first : item s = .ok (x, t)) (more : eat? closing t = none)
    (comma : expect ',' t = .ok u) (others : items item closing fuel u = .ok (xs, v)) :
    items item closing (fuel + 1) s = .ok (x :: xs, v) := by
  simp only [items, first, bind, Except.bind, more, comma, others, pure, Except.pure]

theorem items_blank (skips : SkipsBlank item) : SkipsBlank (items item closing (fuel + 1)) := by
  intro s
  rw [items, items, skips s]

theorem length_le_intercalate (text : List Char) (texts : List (List Char)) :
    texts.length ≤ ([',', ' '].intercalate (text :: texts)).length := by
  induction texts generalizing text with
  | nil => exact Nat.zero_le _
  | cons other texts ih =>
    have shorter := ih other
    simp only [List.intercalate_cons_cons, List.length_append, List.length_cons] at *
    omega

theorem length_le_of_mem {separator : List Char} {text : β → List Char} {y : β} {ys : List β}
    (h : y ∈ ys) : (text y).length ≤ (separator.intercalate (ys.map text)).length := by
  induction ys with
  | nil => exact absurd h List.not_mem_nil
  | cons first others ih =>
    cases others with
    | nil =>
      obtain rfl := List.mem_singleton.mp h
      rw [List.map_singleton, List.intercalate_singleton]
    | cons second others =>
      rw [List.map_cons, List.map_cons, List.intercalate_cons_cons, ← List.map_cons,
        List.length_append, List.length_append]
      rcases List.mem_cons.mp h with rfl | h
      · omega
      · have shorter := ih h
        omega

theorem exists_intercalate_eq (separator text : List Char) (texts : List (List Char)) :
    ∃ s, separator.intercalate (text :: texts) = text ++ s := by
  cases texts with
  | nil => exact ⟨[], by simp⟩
  | cons other texts => exact ⟨_, by rw [List.intercalate_cons_cons, List.append_assoc]⟩

variable {stop : Char → Bool} {text : β → List Char} {value : β → α}

theorem items_of_reads (skips : SkipsBlank item) (comma : stop ',') (close : stop closing)
    (mark : isBlank closing = false) (other : ',' ≠ closing) {y : β} {ys : List β}
    (reads : ∀ z ∈ y :: ys, Reads stop item (text z) (value z)) (enough : ys.length < fuel)
    (rest : List Char) :
    items item closing fuel ([',', ' '].intercalate ((y :: ys).map text) ++ closing :: rest) =
      .ok ((y :: ys).map value, rest) := by
  obtain ⟨fuel, rfl⟩ := Nat.exists_eq_succ_of_ne_zero (Nat.ne_of_gt (Nat.zero_lt_of_lt enough))
  have first := reads y List.mem_cons_self
  induction ys generalizing y fuel with
  | nil =>
    rw [List.map_singleton, List.intercalate_singleton]
    exact items_last (first _ (by simpa using close)) (eat?_self mark)
  | cons z zs ih =>
    have enough' : zs.length < fuel := Nat.lt_of_succ_lt_succ enough
    obtain ⟨fuel, rfl⟩ :=
      Nat.exists_eq_succ_of_ne_zero (Nat.ne_of_gt (Nat.zero_lt_of_lt enough'))
    have reads' := fun w h => reads w (List.mem_cons_of_mem y h)
    have others := ih reads' fuel enough' (reads' z List.mem_cons_self)
    rw [← items_blank skips] at others
    have joined : [',', ' '].intercalate ((y :: z :: zs).map text) ++ closing :: rest =
        text y ++ ',' :: ' ' ::
          ([',', ' '].intercalate ((z :: zs).map text) ++ closing :: rest) := by simp
    rw [joined]
    exact items_more (first _ (by simpa using comma)) (eat?_other (by decide) other)
      (expect_self (by decide)) others

theorem list_of_reads (skips : SkipsBlank item) (comma : stop ',') (close : stop closing)
    (mark : isBlank closing = false) (other : ',' ≠ closing) {ys : List β}
    (opens : ∀ z ∈ ys, ∃ c ∈ (text z).head?, isBlank c = false ∧ c ≠ closing)
    (reads : ∀ z ∈ ys, Reads stop item (text z) (value z)) (rest : List Char) :
    list item closing ([',', ' '].intercalate (ys.map text) ++ closing :: rest) =
      .ok (ys.map value, rest) := by
  cases ys with
  | nil =>
    unfold list
    rw [List.map_nil, List.intercalate_nil, List.nil_append, eat?_self mark]
    rfl
  | cons y ys =>
    obtain ⟨c, first, solid, open'⟩ := opens y List.mem_cons_self
    obtain ⟨s, hs⟩ := List.head?_eq_some_iff.mp first
    obtain ⟨t, ht⟩ := exists_intercalate_eq [',', ' '] (text y) (ys.map text)
    have begun : [',', ' '].intercalate ((y :: ys).map text) ++ closing :: rest =
        c :: (s ++ t ++ closing :: rest) := by
      rw [List.map_cons, ht, hs]
      simp
    have long := length_le_intercalate (text y) (ys.map text)
    unfold list
    rw [begun, eat?_other solid open', ← begun]
    apply items_of_reads skips comma close mark other reads
    rw [List.length_map] at long
    rw [List.length_append, List.map_cons]
    omega

end Lists

section Whole

variable {stop : Char → Bool} {reader : Reader α} {input : String} {x : α}

theorem whole_of_reads (g : Grammar) (reads : Reads stop reader input.toList x) :
    whole g reader input = .ok x := by
  have all := reads [] (by simp)
  rw [List.append_nil] at all
  unfold whole
  rw [all]
  rfl

end Whole

end Reader

end Cql
