import Cql.Sorted.Search
import Cql.Proofs.Sorted

/-!
Halving finds what is there. In a list in increasing order it ends at the item that is equal to the
one looked for, or else at the one place at which that may be put in; so what is done at this place
is what is done by walking along the list.
-/

namespace Cql.Sorted

section Search

variable {α : Type} {order : α → Ordering} {items before window after : List α} {y : α}

/-- Of two items the earlier stands before what is looked for, or the later one behind it. -/
def Separated (order : α → Ordering) (items : List α) : Prop :=
  items.Pairwise fun a b => order a = .lt ∨ order b = .gt

/-- What a place says of the list: the items before it and those behind it are on different sides
of what is looked for. -/
inductive Located (order : α → Ordering) : List α → Place → Prop
  | found {before after : List α} {y : α} (equal : order y = .eq)
      (less : ∀ a ∈ before, order a = .lt) (greater : ∀ a ∈ after, order a = .gt) :
      Located order (before ++ y :: after) (.found before.length)
  | vacant {before after : List α} (less : ∀ a ∈ before, order a = .lt)
      (greater : ∀ a ∈ after, order a = .gt) :
      Located order (before ++ after) (.vacant before.length)

theorem less_of_separated (separated : Separated order (before ++ y :: after))
    (here : order y ≠ .gt) : ∀ a ∈ before, order a = .lt := by
  intro a ha
  have pairs := (List.pairwise_append.mp separated).2.2
  exact (pairs a ha y List.mem_cons_self).resolve_right here

theorem greater_of_separated (separated : Separated order (before ++ y :: after))
    (here : order y ≠ .lt) : ∀ a ∈ after, order a = .gt := by
  intro a ha
  have rest := (List.pairwise_append.mp separated).2.1
  exact ((List.pairwise_cons.mp rest).1 a ha).resolve_left here

/-- The items before the window stand before what is looked for, and those after it behind it. -/
theorem located_searchWithin {steps : Nat}
    (separated : Separated order (before ++ window ++ after))
    (less : ∀ a ∈ before, order a = .lt) (greater : ∀ a ∈ after, order a = .gt)
    (enough : window.length ≤ steps) :
    Located order (before ++ window ++ after)
      (searchWithin order steps before.length window) := by
  induction steps generalizing before window after with
  | zero =>
    obtain rfl := List.length_eq_zero_iff.mp (Nat.le_zero.mp enough)
    rw [List.append_nil]
    exact .vacant less greater
  | succ steps ih =>
    have halves := (List.take_append_drop (window.length / 2) window).symm
    have half : (window.take (window.length / 2)).length = window.length / 2 := by
      rw [List.length_take]
      omega
    rw [searchWithin]
    generalize window.take (window.length / 2) = earlier at *
    cases later : window.drop (window.length / 2) with
    | nil =>
      have empty : window.length ≤ window.length / 2 := List.drop_eq_nil_iff.mp later
      obtain rfl : window = [] := List.length_eq_zero_iff.mp (by omega)
      rw [List.append_nil]
      exact .vacant less greater
    | cons y rest =>
      rw [later] at halves
      obtain rfl := halves
      have split : before ++ (earlier ++ y :: rest) ++ after =
          (before ++ earlier) ++ y :: (rest ++ after) := by simp
      have here : before.length + earlier.length = (before ++ earlier).length :=
        List.length_append.symm
      rw [List.length_append, List.length_cons] at enough
      rw [split] at separated
      rw [split, ← half, here]
      cases side : order y with
      | eq =>
        simp only [side]
        exact .found side (less_of_separated separated (by simp [side]))
          (greater_of_separated separated (by simp [side]))
      | lt =>
        have less' : ∀ a ∈ before ++ earlier ++ [y], order a = .lt := by
          intro a ha
          rcases List.mem_append.mp ha with ha | ha
          · exact less_of_separated separated (by simp [side]) a ha
          · exact List.mem_singleton.mp ha ▸ side
        have joined : before ++ earlier ++ [y] ++ rest ++ after =
            before ++ earlier ++ y :: (rest ++ after) := by simp
        have located := ih (joined ▸ separated) less' greater (by omega)
        rw [joined, List.length_append, List.length_singleton] at located
        simp only [side]
        exact located
      | gt =>
        have greater' : ∀ a ∈ y :: (rest ++ after), order a = .gt := by
          intro a ha
          rcases List.mem_cons.mp ha with rfl | ha
          · exact side
          · exact greater_of_separated separated (by simp [side]) a ha
        simp only [side]
        exact ih separated less greater' (by omega)

theorem other_of_vacant (less : ∀ a ∈ before, order a = .lt)
    (greater : ∀ a ∈ after, order a = .gt) : ∀ a ∈ before ++ after, order a ≠ .eq := by
  intro a ha
  rcases List.mem_append.mp ha with ha | ha
  · simp [less a ha]
  · simp [greater a ha]

theorem located_search (separated : Separated order items) :
    Located order items (search order items) := by
  have whole : [] ++ items ++ [] = items := by simp
  have located := located_searchWithin (whole.symm ▸ separated) (by simp) (by simp) (Nat.le_refl _)
  rw [whole] at located
  exact located

end Search

section Operations

variable {α β : Type} {cmp : α → α → Ordering} {items : List α} {entries : List (α × β)}

theorem separated_of_increasing [Std.TransCmp cmp] (increasing : Increasing cmp items) (x : α) :
    Separated (cmp · x) items := by
  apply increasing.imp
  intro a b less
  have greater : cmp b a = .gt := Std.OrientedCmp.gt_iff_lt.mpr less
  cases side : cmp a x with
  | lt => exact .inl side
  | eq => exact .inr ((Std.TransCmp.congr_right side).symm.trans greater)
  | gt => exact .inr (Std.TransCmp.gt_trans greater side)

theorem located_of_increasing [Std.TransCmp cmp] (increasing : Increasing cmp items) (x : α) :
    Located (cmp · x) items (search (cmp · x) items) :=
  located_search (separated_of_increasing increasing x)

theorem located_key [Std.TransCmp cmp] (increasing : Increasing cmp (entries.map (·.1)))
    (k : α) :
    Located (cmp ·.1 k) entries (search (cmp ·.1 k) entries) := by
  apply located_search
  exact List.pairwise_map.mp (separated_of_increasing increasing k)

/-- A new item splits the list; if an equal item is there, nothing is put in. -/
theorem insert_cases [Std.TransCmp cmp] (increasing : Increasing cmp items) (x : α) :
    ((∃ y ∈ items, cmp y x = .eq) ∧ insert cmp x items = (false, items)) ∨
      ∃ before after, items = before ++ after ∧ (∀ y ∈ items, cmp y x ≠ .eq) ∧
        insert cmp x items = (true, before ++ x :: after) := by
  have located := located_of_increasing increasing x
  generalize search (cmp · x) items = place at located
  cases located with
  | @found before after y equal less _ =>
    exact .inl ⟨⟨y, by simp, equal⟩, insert_found less equal⟩
  | @vacant before after less greater =>
    exact .inr ⟨before, after, rfl, other_of_vacant less greater, insert_vacant less greater⟩

theorem contains_insert [Std.TransCmp cmp] (increasing : Increasing cmp items) (x y : α) :
    contains cmp y (insert cmp x items).2 = (cmp x y == .eq || contains cmp y items) := by
  rcases insert_cases increasing x with ⟨⟨z, hz, equal⟩, done⟩ | ⟨before, after, rfl, -, done⟩
  · have known : cmp x y = .eq → contains cmp y items := fun same =>
      contains_iff.mpr ⟨z, hz, (Std.TransCmp.congr_left equal).trans same⟩
    rw [done]
    cases here : contains cmp y items with
    | true => simp
    | false =>
      have other : cmp x y ≠ .eq := fun same => by simp [known same] at here
      simp [other]
  · rw [done]
    simp [contains, Bool.or_left_comm]

/-- A new key splits the entries; if an equal key is there, the value under it is replaced. -/
theorem put_cases [Std.TransCmp cmp] (increasing : Increasing cmp (entries.map (·.1))) (k : α)
    (v : β) :
    (∃ before l u after, entries = before ++ (l, u) :: after ∧ cmp l k = .eq ∧
        put cmp k v entries = (some u, before ++ (l, v) :: after)) ∨
      ∃ before after, entries = before ++ after ∧ (∀ e ∈ entries, cmp e.1 k ≠ .eq) ∧
        put cmp k v entries = (none, before ++ (k, v) :: after) := by
  have located := located_key increasing k
  generalize search (cmp ·.1 k) entries = place at located
  cases located with
  | @found before after e equal less _ =>
    exact .inl ⟨before, e.1, e.2, after, rfl, equal, put_found less equal⟩
  | @vacant before after less greater =>
    exact .inr ⟨before, after, rfl, other_of_vacant less greater, put_vacant less greater⟩

theorem get?_skip {before after : List (α × β)} {l k : α} (u : β) (other : cmp l k ≠ .eq) :
    get? cmp k (before ++ (l, u) :: after) = get? cmp k (before ++ after) := by
  simp [get?, List.find?_append, other]

theorem get?_put [Std.TransCmp cmp] (increasing : Increasing cmp (entries.map (·.1))) (k x : α)
    (v : β) :
    get? cmp x (put cmp k v entries).2 =
      if cmp k x = .eq then some v else get? cmp x entries := by
  have kept := increasing_put increasing k v
  rcases put_cases increasing k v with
    ⟨before, l, u, after, rfl, equal, done⟩ | ⟨before, after, rfl, -, done⟩
  · rw [done] at kept ⊢
    have same : cmp l x = cmp k x := Std.TransCmp.congr_left equal
    split
    · rename_i here
      exact get?_of_mem kept (e := (l, v)) (by simp) (same.trans here)
    · rename_i other
      rw [get?_skip v (same.symm ▸ other), get?_skip u (same.symm ▸ other)]
  · rw [done] at kept ⊢
    split
    · rename_i here
      exact get?_of_mem kept (e := (k, v)) (by simp) here
    · rename_i other
      exact get?_skip v other

theorem put_fst [Std.TransCmp cmp] (increasing : Increasing cmp (entries.map (·.1))) (k : α)
    (v : β) : (put cmp k v entries).1 = get? cmp k entries := by
  rcases put_cases increasing k v with
    ⟨before, l, u, after, rfl, equal, done⟩ | ⟨before, after, rfl, other, done⟩
  · rw [done]
    exact (get?_of_mem increasing (e := (l, u)) (by simp) equal).symm
  · rw [done]
    exact (get?_eq_none other).symm

theorem length_put [Std.TransCmp cmp] (increasing : Increasing cmp (entries.map (·.1))) (k : α)
    (v : β) :
    (put cmp k v entries).2.length =
      if (get? cmp k entries).isNone then entries.length + 1 else entries.length := by
  rw [← put_fst increasing k v]
  rcases put_cases increasing k v with
    ⟨before, l, u, after, rfl, -, done⟩ | ⟨before, after, rfl, -, done⟩
  · simp [done]
  · simp [done, Nat.add_assoc]

theorem insertIdx_length (before after : List α) (x : α) :
    (before ++ after).insertIdx before.length x = before ++ x :: after := by
  induction before with
  | nil => rfl
  | cons a before ih => exact congrArg (List.cons a) ih

theorem modify_length (before after : List α) (y : α) (f : α → α) :
    (before ++ y :: after).modify before.length f = before ++ f y :: after := by
  induction before with
  | nil => rfl
  | cons a before ih => exact congrArg (List.cons a) ih

end Operations

end Cql.Sorted
