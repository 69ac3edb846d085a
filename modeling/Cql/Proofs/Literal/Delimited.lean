import Cql.Proofs.Literal.Reader
import Cql.Proofs.Phrase

namespace Cql

def Delimited (tail : List Char) : Prop := ∃ c ∈ tail.head?, Token.isDelimiter c

variable {tail : List Char}

section Characters

variable {c : Char}

theorem plain_of_isDelimiter (h : Token.isDelimiter c) :
    isBlank c = false ∧ isAlphanumeric c = false ∧ c ≠ '_' ∧ c ≠ '\'' ∧
      c.toLower ∉ ['n', 'u', 'l', 'l'] := by
  rcases Token.isDelimiter_iff.mp h with rfl | rfl | rfl | rfl | rfl <;>
    exact ⟨rfl, by decide, by decide, by decide, by decide⟩

end Characters

/-- What the one reader gives for a text, the other one gives for the text with the tail behind it,
of which it takes nothing. The text is not blank. -/
def Reader.Carried {α : Type} (tail : List Char) (item item' : Reader α) : Prop :=
  ∀ ⦃s : List Char⦄ ⦃x : α⦄ ⦃rest : List Char⦄, item s = .ok (x, rest) →
    trimStart s ≠ [] ∧ item' (s ++ tail) = .ok (x, rest ++ tail)

section Pieces

variable {c : Char} {s rest : List Char}

theorem ne_append_of_solid {t u : List Char} (solid : t ≠ []) (other : ∀ v, t ≠ c :: v) :
    t ++ tail ≠ c :: u := by
  obtain ⟨d, v, rfl⟩ := List.exists_cons_of_ne_nil solid
  intro same
  exact other v ((List.cons.inj same).1 ▸ rfl)

theorem takeWhile_append_found (tail : List Char) {p : Char → Bool}
    (found : s.dropWhile p = c :: rest) :
    (s ++ tail).takeWhile p = s.takeWhile p ∧ (s ++ tail).dropWhile p = c :: (rest ++ tail) := by
  induction s with
  | nil => contradiction
  | cons d s ih => cases h : p d <;> simp_all

namespace Reader

theorem eat?_append (solid : trimStart s ≠ []) :
    eat? c (s ++ tail) = (eat? c s).map (· ++ tail) := by
  obtain ⟨d, t, trimmed⟩ := List.exists_cons_of_ne_nil solid
  unfold eat?
  rw [trimStart_append trimmed, trimmed]
  dsimp only
  split <;> rfl

theorem solid_of_eat? (eaten : eat? c s = some rest) : trimStart s ≠ [] := by
  intro blank
  simp [eat?, blank] at eaten

theorem eat?_append_some (tail : List Char) (eaten : eat? c s = some rest) :
    eat? c (s ++ tail) = some (rest ++ tail) := by
  rw [eat?_append (solid_of_eat? eaten), eaten]
  rfl

theorem eat?_append_none (tail : List Char) (solid : trimStart s ≠ []) (other : eat? c s = none) :
    eat? c (s ++ tail) = none := by
  rw [eat?_append solid, other]
  rfl

theorem expect_append (tail : List Char) (expected : expect c s = .ok rest) :
    trimStart s ≠ [] ∧ expect c (s ++ tail) = .ok (rest ++ tail) := by
  have eaten := Phrase.expect_eq_ok_iff.mp expected
  exact ⟨solid_of_eat? eaten, Phrase.expect_eq_ok_iff.mpr (eat?_append_some tail eaten)⟩

end Reader

variable (delimited : Delimited tail)
include delimited

theorem trimStart_append_delimited : trimStart (s ++ tail) = trimStart s ++ tail := by
  obtain ⟨c, first, delimiter⟩ := delimited
  obtain ⟨more, rfl⟩ := List.head?_eq_some_iff.mp first
  cases trimmed : trimStart s with
  | nil =>
    rw [trimStart_blank_append (blank_of_trimStart_eq_nil trimmed)]
    exact trimStart_cons (plain_of_isDelimiter delimiter).1
  | cons d t => exact trimStart_append trimmed

theorem takeWhile_append_delimited {p : Char → Bool}
    (stops : ∀ c, Token.isDelimiter c → p c = false) :
    (s ++ tail).takeWhile p = s.takeWhile p ∧ (s ++ tail).dropWhile p = s.dropWhile p ++ tail := by
  obtain ⟨c, first, delimiter⟩ := delimited
  obtain ⟨more, rfl⟩ := List.head?_eq_some_iff.mp first
  have stop := stops c delimiter
  induction s with
  | nil => simp [stop]
  | cons d s ih => cases h : p d <;> simp [h, ih]

end Pieces

section Lists

variable {α : Type} {item item' : Reader α} {closing : Char} {fuel fuel' : Nat}
  {s rest : List Char} {xs : List α}

namespace Reader

theorem carried_items (carried : Carried tail item item')
    (h : items item closing fuel s = .ok (xs, rest)) (enough : fuel ≤ fuel') :
    trimStart s ≠ [] ∧ items item' closing fuel' (s ++ tail) = .ok (xs, rest ++ tail) := by
  induction fuel generalizing fuel' s xs with
  | zero => contradiction
  | succ fuel ih =>
    obtain ⟨fuel', rfl⟩ : ∃ n, fuel' = n + 1 := ⟨fuel' - 1, by omega⟩
    rw [items] at h
    obtain ⟨⟨x, t⟩, first, left⟩ := bind_eq_ok_iff.mp h
    obtain ⟨solid, first'⟩ := carried first
    refine ⟨solid, ?_⟩
    cases closed : eat? closing t with
    | some v =>
      simp only [closed] at left
      obtain ⟨rfl, rfl⟩ : [x] = xs ∧ v = rest := by simpa [pure, Except.pure] using left
      exact items_last first' (eat?_append_some tail closed)
    | none =>
      simp only [closed] at left
      obtain ⟨v, comma, left⟩ := bind_eq_ok_iff.mp left
      obtain ⟨⟨ys, w⟩, others, done⟩ := bind_eq_ok_iff.mp left
      obtain ⟨rfl, rfl⟩ : x :: ys = xs ∧ w = rest := by simpa [pure, Except.pure] using done
      obtain ⟨more, comma'⟩ := expect_append tail comma
      have enough' : fuel ≤ fuel' := by omega
      obtain ⟨-, others'⟩ := ih others enough'
      exact items_more first' (eat?_append_none tail more closed) comma' others'

theorem carried_list (carried : Carried tail item item') :
    Carried tail (list item closing) (list item' closing) := by
  intro s xs rest h
  unfold list at h ⊢
  cases closed : eat? closing s with
  | some t =>
    obtain ⟨rfl, rfl⟩ : [] = xs ∧ t = rest := by simpa [closed] using h
    rw [eat?_append_some tail closed]
    exact ⟨solid_of_eat? closed, rfl⟩
  | none =>
    simp only [closed] at h
    have enough : s.length + 1 ≤ (s ++ tail).length + 1 := by simp
    obtain ⟨solid, read⟩ := carried_items carried h enough
    rw [eat?_append_none tail solid closed]
    exact ⟨solid, read⟩

end Reader

end Lists

namespace Token

variable (delimited : Delimited tail)
include delimited

theorem quoted_append {s rest text : List Char} (h : Reader.quoted '\'' s = .ok (text, rest)) :
    Reader.quoted '\'' (s ++ tail) = .ok (text, rest ++ tail) := by
  obtain ⟨rfl, apart⟩ := Reader.quoted_eq_ok_iff.mp h
  refine Reader.quoted_eq_ok_iff.mpr ⟨by simp, ?_⟩
  cases rest with
  | nil =>
    -- No delimiter is a quote, which would make the closing one a double one.
    obtain ⟨c, first, delimiter⟩ := delimited
    intro same
    obtain rfl : c = '\'' := Option.some.inj (first.symm.trans same)
    contradiction
  | cons d rest => exact apart

theorem carried_reader : Reader.Carried tail reader reader := by
  intro s token rest h
  have stops : ∀ c, isDelimiter c → (!isDelimiter c) = false := by simp
  unfold reader at h ⊢
  rw [trimStart_append_delimited delimited]
  split at h
  · rename_i t quoted
    rw [quoted]
    obtain ⟨⟨text, r⟩, read, same⟩ := bind_eq_ok_iff.mp h
    obtain ⟨rfl, rfl⟩ : ⟨String.ofList text, true⟩ = token ∧ r = rest := by
      simpa [pure, Except.pure] using same
    refine ⟨List.cons_ne_nil _ _, ?_⟩
    simp only [List.cons_append, quoted_append delimited read, bind, Except.bind, pure,
      Except.pure]
  · rename_i unquoted
    dsimp only at h
    split at h
    · cases h
    · rename_i present
      obtain ⟨rfl, rfl⟩ := Prod.mk.inj (Except.ok.inj h)
      have solid : trimStart s ≠ [] := by
        intro blank
        rw [blank] at present
        exact present rfl
      obtain ⟨run, left⟩ := takeWhile_append_delimited delimited stops (s := trimStart s)
      refine ⟨solid, ?_⟩
      split
      · rename_i same
        exact absurd same (ne_append_of_solid solid unquoted)
      · dsimp only
        rw [run, left, if_neg present]

end Token

namespace Literal

section Null

variable {s rest : List Char}

def IsNull (w : List Char) : Prop := w.map Char.toLower = ['n', 'u', 'l', 'l']

theorem null?_eq_some_iff :
    null? s = some rest ↔ ∃ w, trimStart s = w ++ rest ∧ IsNull w ∧
      ∀ c ∈ rest.head?, (isAlphanumeric c || c == '_') = false := by
  unfold null?
  constructor
  · intro h
    split at h
    · rename_i n u l l' t trimmed
      split at h
      · rename_i same
        split at h
        · rename_i c v
          split at h
          · contradiction
          · rename_i ends
            obtain rfl := Option.some.inj h
            exact ⟨[n, u, l, l'], trimmed, same, by simpa using ends⟩
        · obtain rfl := Option.some.inj h
          exact ⟨[n, u, l, l'], trimmed, same, by simp⟩
      · contradiction
    · contradiction
  · rintro ⟨w, trimmed, same, ends⟩
    obtain ⟨n, u, l, l', rfl⟩ : ∃ n u l l', w = [n, u, l, l'] := by
      have size := congrArg List.length same
      match w, size with
      | [n, u, l, l'], _ => exact ⟨n, u, l, l', rfl⟩
    have lower : [n, u, l, l'].map Char.toLower = ['n', 'u', 'l', 'l'] := same
    rw [trimmed]
    simp only [List.cons_append, List.nil_append, lower, if_true]
    cases rest with
    | nil => rfl
    | cons c v => simp [ends c rfl]

variable (delimited : Delimited tail)
include delimited

theorem null?_append : null? (s ++ tail) = (null? s).map (· ++ tail) := by
  have split := trimStart_append_delimited delimited (s := s)
  obtain ⟨c, first, delimiter⟩ := delimited
  obtain ⟨more, rfl⟩ := List.head?_eq_some_iff.mp first
  obtain ⟨-, notAlphanumeric, notUnderscore, -, notLetter⟩ := plain_of_isDelimiter delimiter
  cases null : null? s with
  | some rest =>
    obtain ⟨w, trimmed, word, ends⟩ := null?_eq_some_iff.mp null
    refine null?_eq_some_iff.mpr ⟨w, ?_, word, ?_⟩
    · rw [split, trimmed, List.append_assoc]
    · cases rest with
      | nil => simp [notAlphanumeric, notUnderscore]
      | cons d rest => simpa using ends
  | none =>
    cases null' : null? (s ++ c :: more) with
    | none => rfl
    | some rest =>
      obtain ⟨w, trimmed, word, ends⟩ := null?_eq_some_iff.mp null'
      rw [split] at trimmed
      have notNull {m : List Char} (front : trimStart s = w ++ m)
          (ends : ∀ c ∈ m.head?, (isAlphanumeric c || c == '_') = false) : False := by
        rw [null?_eq_some_iff.mpr ⟨w, front, word, ends⟩] at null
        contradiction
      -- The word ends in front of the tail, or the delimiter would be one of its letters.
      rcases List.append_eq_append_iff.mp trimmed with ⟨m, rfl, behind⟩ | ⟨m, front, rfl⟩
      · cases m with
        | nil => exact (@notNull [] (by simp) (by simp)).elim
        | cons d m =>
          obtain ⟨rfl, -⟩ := List.cons.inj behind
          have letter : c.toLower ∈ ['n', 'u', 'l', 'l'] := word ▸ List.mem_map_of_mem (by simp)
          exact absurd letter notLetter
      · refine (notNull front fun d head => ends d ?_).elim
        rw [List.head?_append, head]
        rfl

end Null

section Parts

variable {key key' value value' : Reader Value} (delimited : Delimited tail)

theorem carried_entryReader (keys : Reader.Carried tail key key')
    (values : Reader.Carried tail value value') :
    Reader.Carried tail (entryReader key value) (entryReader key' value') := by
  intro s xs rest h
  unfold entryReader at h ⊢
  obtain ⟨⟨k, r⟩, first, left⟩ := bind_eq_ok_iff.mp h
  obtain ⟨u, colon, left⟩ := bind_eq_ok_iff.mp left
  obtain ⟨⟨v, w⟩, second, done⟩ := bind_eq_ok_iff.mp left
  obtain ⟨rfl, rfl⟩ : [k, v] = xs ∧ w = rest := by simpa [pure, Except.pure] using done
  obtain ⟨solid, first'⟩ := keys first
  obtain ⟨-, colon'⟩ := Reader.expect_append tail colon
  obtain ⟨-, second'⟩ := values second
  refine ⟨solid, ?_⟩
  simp only [first', colon', second', bind, Except.bind, pure, Except.pure]

include delimited

theorem carried_nameReader : Reader.Carried tail nameReader nameReader := by
  intro s name rest h
  have stops : ∀ c, Token.isDelimiter c → (isAlphanumeric c || c == '_') = false := by
    intro c delimiter
    obtain ⟨-, notAlphanumeric, notUnderscore, -⟩ := plain_of_isDelimiter delimiter
    simp [notAlphanumeric, notUnderscore]
  unfold nameReader at h ⊢
  rw [trimStart_append_delimited delimited]
  split at h
  · rename_i t quoted
    rw [quoted]
    refine ⟨List.cons_ne_nil _ _, ?_⟩
    split at h
    · rename_i found
      obtain ⟨rfl, rfl⟩ := Prod.mk.inj (Except.ok.inj h)
      obtain ⟨inside, behind⟩ := takeWhile_append_found tail found
      simp only [List.cons_append, inside, behind]
    · cases h
  · rename_i unquoted
    dsimp only at h
    split at h
    · cases h
    · rename_i present
      obtain ⟨rfl, rfl⟩ := Prod.mk.inj (Except.ok.inj h)
      have solid : trimStart s ≠ [] := by
        intro blank
        rw [blank] at present
        exact present rfl
      obtain ⟨run, left⟩ := takeWhile_append_delimited delimited stops (s := trimStart s)
      refine ⟨solid, ?_⟩
      split
      · rename_i same
        exact absurd same (ne_append_of_solid solid unquoted)
      · dsimp only
        rw [run, left, if_neg present]

theorem carried_fieldReader {fields fields' : List (String × Reader Value)}
    (carried : ∀ name value, fields.lookup name = some value →
      ∃ value', fields'.lookup name = some value' ∧ Reader.Carried tail value value') :
    Reader.Carried tail (fieldReader fields) (fieldReader fields') := by
  intro s xs rest h
  unfold fieldReader at h ⊢
  obtain ⟨⟨name, r⟩, first, left⟩ := bind_eq_ok_iff.mp h
  obtain ⟨solid, first'⟩ := carried_nameReader delimited first
  refine ⟨solid, ?_⟩
  dsimp only at left
  split at left
  · rename_i value found
    obtain ⟨value', found', values⟩ := carried name value found
    obtain ⟨u, colon, left⟩ := bind_eq_ok_iff.mp left
    obtain ⟨⟨v, w⟩, second, done⟩ := bind_eq_ok_iff.mp left
    obtain ⟨rfl, rfl⟩ : [.text name, v] = xs ∧ w = rest := by simpa [pure, Except.pure] using done
    obtain ⟨-, colon'⟩ := Reader.expect_append tail colon
    obtain ⟨-, second'⟩ := values second
    simp only [first', found', colon', second', bind, Except.bind, pure, Except.pure]
  · contradiction

end Parts

section Readers

def bracketed {α : Type} (opening closing : Char) (item : Reader α)
    (make : List α → Except Fault Value) : Reader Value := fun s => do
  let (xs, s) ← Reader.list item closing (← Reader.expect opening s)
  made (make xs) s

variable {input input' : String}

theorem carried_bracketed {α : Type} {opening closing : Char} {item item' : Reader α}
    (make : List α → Except Fault Value) (carried : Reader.Carried tail item item') :
    Reader.Carried tail (bracketed opening closing item make)
      (bracketed opening closing item' make) := by
  intro s v rest h
  unfold bracketed at h ⊢
  obtain ⟨u, opened, left⟩ := bind_eq_ok_iff.mp h
  obtain ⟨⟨xs, w⟩, items, left⟩ := bind_eq_ok_iff.mp left
  obtain ⟨value, rfl⟩ := made_eq_ok_iff.mp left
  obtain ⟨solid, opened'⟩ := Reader.expect_append tail opened
  obtain ⟨-, items'⟩ := Reader.carried_list carried items
  simp only [opened', items', bind, Except.bind, value, made]
  exact ⟨solid, trivial⟩

theorem carried_of_present (delimited : Delimited tail) {t : Ty}
    (present : ∀ (s : List Char) (v : Value) (rest : List Char), null? s = none →
      null? (s ++ tail) = none → reader input t s = .ok (v, rest) →
        trimStart s ≠ [] ∧ reader input' t (s ++ tail) = .ok (v, rest ++ tail)) :
    Reader.Carried tail (reader input t) (reader input' t) := by
  intro s v rest h
  have more := null?_append delimited (s := s)
  cases null : null? s with
  | none =>
    rw [null] at more
    exact present s v rest null more h
  | some left =>
    rw [null] at more
    have solid : trimStart s ≠ [] := by
      intro blank
      simp [null?, blank] at null
    obtain ⟨rfl, rfl⟩ := Prod.mk.inj (Except.ok.inj ((reader_of_null? null).symm.trans h))
    exact ⟨solid, reader_of_null? more⟩

mutual

/-- A literal is read in front of the tail, whatever the texts are in which it stands. -/
theorem carried_reader (delimited : Delimited tail) (input input' : String) :
    (t : Ty) → Reader.Carried tail (reader input t) (reader input' t)
  | .scalar k => by
    refine carried_of_present delimited fun s v rest null more h => ?_
    simp only [reader, null, more] at h ⊢
    obtain ⟨⟨token, u⟩, first, left⟩ := bind_eq_ok_iff.mp h
    obtain ⟨solid, first'⟩ := Token.carried_reader delimited first
    obtain ⟨value, rfl⟩ := made_eq_ok_iff.mp left
    simp only [first', bind, Except.bind, value, made]
    exact ⟨solid, trivial⟩
  | .list e => by
    refine carried_of_present delimited fun s v rest null more h => ?_
    simp only [reader, null, more] at h ⊢
    exact carried_bracketed (Ty.create (.list e)) (carried_reader delimited input input' e) h
  | .set e => by
    refine carried_of_present delimited fun s v rest null more h => ?_
    simp only [reader, null, more] at h ⊢
    exact carried_bracketed (Ty.create (.set e)) (carried_reader delimited input input' e) h
  | .map key value => by
    refine carried_of_present delimited fun s v rest null more h => ?_
    simp only [reader, null, more] at h ⊢
    have entries := carried_entryReader (carried_reader delimited input input' key)
      (carried_reader delimited input input' value)
    exact carried_bracketed (fun xs => Ty.create (.map key value) xs.flatten) entries h
  | .tuple ts => by
    refine carried_of_present delimited fun s v rest null more h => ?_
    simp only [reader, null, more] at h ⊢
    obtain ⟨u, opened, left⟩ := bind_eq_ok_iff.mp h
    obtain ⟨solid, opened'⟩ := Reader.expect_append tail opened
    refine ⟨solid, ?_⟩
    cases closed : Reader.eat? ')' u with
    | some t =>
      simp only [closed, bind, Except.bind] at left
      obtain ⟨value, rfl⟩ := made_eq_ok_iff.mp left
      have closed' := Reader.eat?_append_some tail closed
      simp only [opened', closed', bind, Except.bind, value, made]
    | none =>
      simp only [closed] at left
      obtain ⟨⟨xs, w⟩, slots, left⟩ := bind_eq_ok_iff.mp left
      obtain ⟨value, rfl⟩ := made_eq_ok_iff.mp left
      obtain ⟨inner, slots'⟩ := carried_slotsReader delimited input input' ts.length ts slots
      have closed' := Reader.eat?_append_none tail inner closed
      simp only [opened', closed', slots', bind, Except.bind, value, made]
  | .user label fields => by
    refine carried_of_present delimited fun s v rest null more h => ?_
    simp only [reader, null, more] at h ⊢
    have field := carried_fieldReader delimited (carried_fieldReaders delimited input input' fields)
    exact carried_bracketed (fun xs => Ty.create (.user label fields) xs.flatten) field h

theorem carried_slotsReader (delimited : Delimited tail) (input input' : String) (size : Nat) :
    (ts : List Ty) → Reader.Carried tail (slotsReader input size ts) (slotsReader input' size ts)
  | [] => by
    intro s xs rest h
    simp [slotsReader] at h
  | t :: ts => by
    intro s xs rest h
    rw [slotsReader] at h
    obtain ⟨⟨x, u⟩, first, left⟩ := bind_eq_ok_iff.mp h
    obtain ⟨solid, first'⟩ := carried_reader delimited input input' t first
    refine ⟨solid, ?_⟩
    cases closed : Reader.eat? ')' u with
    | some v =>
      simp only [closed] at left
      obtain ⟨rfl, rfl⟩ : [x] = xs ∧ v = rest := by simpa [pure, Except.pure] using left
      exact slotsReader_last first' (Reader.eat?_append_some tail closed)
    | none =>
      simp only [closed] at left
      obtain ⟨w, comma, left⟩ := bind_eq_ok_iff.mp left
      obtain ⟨⟨ys, z⟩, others, done⟩ := bind_eq_ok_iff.mp left
      obtain ⟨rfl, rfl⟩ : x :: ys = xs ∧ z = rest := by simpa [pure, Except.pure] using done
      obtain ⟨inner, comma'⟩ := Reader.expect_append tail comma
      obtain ⟨-, others'⟩ := carried_slotsReader delimited input input' size ts others
      exact slotsReader_more first' (Reader.eat?_append_none tail inner closed) comma' others'

theorem carried_fieldReaders (delimited : Delimited tail) (input input' : String) :
    (fields : List (String × Ty)) → ∀ name value,
      (fieldReaders input fields).lookup name = some value →
        ∃ value', (fieldReaders input' fields).lookup name = some value' ∧
          Reader.Carried tail value value'
  | [] => by simp [fieldReaders]
  | (own, t) :: fields => by
    intro name value found
    rw [fieldReaders, List.lookup_cons] at found ⊢
    cases same : name == own with
    | true =>
      simp only [same] at found ⊢
      obtain rfl := Option.some.inj found
      exact ⟨_, rfl, carried_reader delimited input input' t⟩
    | false =>
      simp only [same] at found ⊢
      exact carried_fieldReaders delimited input input' fields name value found

end

end Readers

end Literal

end Cql
