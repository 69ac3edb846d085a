import Cql.Proofs.Container.InPlace

namespace Cql.Container

variable {t : Ty} {xs after : List Value} {v w : Value}

section Call

theorem held_insertInPlace (increasing : Sorted.Increasing Value.cmp xs) :
    ((insertInPlace t v).on xs).2 =
      match element t v with
      | .ok w => (Sorted.insert Value.cmp w xs).2
      | .error _ => xs := by
  rw [insertInPlace_eq increasing, insert_eq_map_element]
  cases element t v <;> rfl

theorem increasing_insertInPlace (increasing : Sorted.Increasing Value.cmp xs) :
    Sorted.Increasing Value.cmp ((insertInPlace t v).on xs).2 := by
  rw [held_insertInPlace increasing]
  split
  · exact Sorted.increasing_insert increasing _
  · exact increasing

theorem error_of_insertInPlace {fault : Fault} (increasing : Sorted.Increasing Value.cmp xs)
    (call : (insertInPlace t v).on xs = (.error fault, after)) :
    element t v = .error fault ∧ after = xs := by
  rwa [insertInPlace_eq increasing, settle_eq_error_iff, insert_eq_map_element,
    map_eq_error_iff] at call

theorem change_of_insertInPlace {added : Bool} (increasing : Sorted.Increasing Value.cmp xs)
    (call : (insertInPlace t v).on xs = (.ok added, after)) :
    ∃ w, element t v = .ok w ∧ (added ↔ ∀ x ∈ xs, x.cmp w ≠ .eq) ∧
      after.Perm (if added then w :: xs else xs) ∧ (added = false → after = xs) := by
  rw [insertInPlace_eq increasing, settle_eq_ok_iff, insert_eq_map_element] at call
  obtain ⟨w, made, inserted⟩ := map_eq_ok_iff.mp call
  refine ⟨w, made, ?_⟩
  rcases Sorted.insert_cases increasing w with
    ⟨⟨x, hx, equal⟩, done⟩ | ⟨before, behind, split, other, done⟩
  · obtain ⟨rfl, rfl⟩ := Prod.mk.inj (done.symm.trans inserted)
    exact ⟨by simpa using ⟨x, hx, equal⟩, .refl _, fun _ => rfl⟩
  · obtain ⟨rfl, rfl⟩ := Prod.mk.inj (done.symm.trans inserted)
    refine ⟨by simpa using other, ?_, by simp⟩
    rw [split]
    exact List.perm_middle

end Call

section Calls

def insertAll (t : Ty) (calls : List Value) : List Value :=
  calls.foldl (fun xs v => ((insertInPlace t v).on xs).2) []

def elementsOf (t : Ty) (calls : List Value) : List Value :=
  calls.filterMap fun v => (element t v).toOption

theorem insertAll_concat (calls : List Value) (v : Value) :
    insertAll t (calls ++ [v]) = ((insertInPlace t v).on (insertAll t calls)).2 := by
  simp [insertAll]

theorem elementsOf_concat (calls : List Value) (v : Value) :
    elementsOf t (calls ++ [v]) = elementsOf t calls ++ (element t v).toOption.toList := by
  unfold elementsOf
  rw [List.filterMap_append]
  cases made : (element t v).toOption <;> simp [made]

theorem increasing_insertAll (t : Ty) (calls : List Value) :
    Sorted.Increasing Value.cmp (insertAll t calls) := by
  induction calls using List.reverseRecOn with
  | nil => exact .nil
  | append_singleton calls v ih =>
    rw [insertAll_concat]
    exact increasing_insertInPlace ih

theorem mem_elementsOf_of_mem {x : Value} {calls : List Value} (h : x ∈ insertAll t calls) :
    x ∈ elementsOf t calls := by
  induction calls using List.reverseRecOn with
  | nil => exact h
  | append_singleton calls v ih =>
    rw [insertAll_concat, held_insertInPlace (increasing_insertAll t calls)] at h
    rw [elementsOf_concat, List.mem_append]
    cases made : element t v with
    | error fault =>
      rw [made] at h
      exact .inl (ih h)
    | ok w =>
      rw [made] at h
      rcases Sorted.mem_of_mem_insert h with rfl | h
      · exact .inr (by simp [Except.toOption])
      · exact .inl (ih h)

theorem contains_insertAll (t : Ty) (calls : List Value) (x : Value) :
    contains (insertAll t calls) x ↔ ∃ w ∈ elementsOf t calls, w.cmp x = .eq := by
  induction calls using List.reverseRecOn with
  | nil => simp [insertAll, elementsOf, contains, Sorted.contains]
  | append_singleton calls v ih =>
    have increasing := increasing_insertAll t calls
    rw [insertAll_concat, held_insertInPlace increasing, elementsOf_concat]
    cases element t v with
    | error fault => simpa [Except.toOption] using ih
    | ok w =>
      unfold contains at *
      rw [Sorted.contains_insert increasing]
      simp [Except.toOption, ih, or_and_right, exists_or, or_comm]

/-- A set refines the finite set that its calls describe. It has an equal item for each value that
a call put in, and no others; the next call that is done adds its value unless an equal one is
there, and a call that is refused changes nothing. -/
theorem insertAll_refines (t : Ty) (calls : List Value) :
    let xs := insertAll t calls
    let done := elementsOf t calls
    Sorted.Increasing Value.cmp xs ∧
      ((∀ x ∈ xs, x ∈ done) ∧ ∀ w ∈ done, ∃ x ∈ xs, x.cmp w = .eq) ∧
      (∀ x, (holds xs x ↔ ∃ y ∈ xs, y.cmp x = .eq) ∧ (holds xs x ↔ contains xs x)) ∧
      ∀ v, (insertInPlace t v).on xs = settle xs (insert t xs v) ∧
        (∀ fault after, (insertInPlace t v).on xs = (.error fault, after) →
          element t v = .error fault ∧ after = xs) ∧
        ∀ added after, (insertInPlace t v).on xs = (.ok added, after) →
          ∃ w, element t v = .ok w ∧ t.coerce v = .ok w ∧
            (added ↔ ∀ x ∈ xs, x.cmp w ≠ .eq) ∧
            after.Perm (if added then w :: xs else xs) ∧ (added = false → after = xs) ∧
            after.length = if added then xs.length + 1 else xs.length := by
  intro xs done
  have increasing : Sorted.Increasing Value.cmp xs := increasing_insertAll t calls
  refine ⟨increasing, ⟨fun x => mem_elementsOf_of_mem, ?_⟩, fun x => ⟨?_, ?_⟩,
    fun v => ⟨?_, ?_, ?_⟩⟩
  · intro w hw
    have there := (contains_insertAll t calls w).mpr ⟨w, hw, Std.ReflCmp.compare_self⟩
    exact Sorted.contains_iff.mp there
  · exact holds_iff increasing x
  · exact (holds_iff increasing x).trans Sorted.contains_iff.symm
  · exact insertInPlace_eq increasing
  · exact fun fault after => error_of_insertInPlace increasing
  · intro added after call
    obtain ⟨w, made, new, items, same⟩ := change_of_insertInPlace increasing call
    have size : after.length = if added then xs.length + 1 else xs.length := by
      rw [items.length_eq]
      cases added <;> rfl
    exact ⟨w, made, (element_eq_ok_iff.mp made).2, new, items, same, size⟩

theorem insertAll_refines_repeated :
    let int : Ty := .scalar .int
    let one : Value := .fixed .int ⟨1, by decide, by decide⟩
    let long : Value := .long ⟨1, by decide, by decide⟩
    let xs := insertAll int [long, .text "one"]
    xs = [one] ∧ (insertInPlace int one).on xs = (.ok false, [one]) ∧
      ∃ x ∈ xs, x.cmp one = .eq := by
  intro int one long xs
  obtain ⟨-, -, -, calls⟩ := insertAll_refines int [long, .text "one"]
  obtain ⟨-, -, changed⟩ := calls one
  have call : (insertInPlace int one).on xs = (.ok false, [one]) := by
    subst int one long xs
    rfl
  obtain ⟨w, made, -, new, -⟩ := changed _ _ call
  cases made
  exact ⟨rfl, call, by simpa using new⟩

end Calls

end Cql.Container
