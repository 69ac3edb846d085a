import Cql.Proofs.Outcome
import Cql.Sorted
import Mathlib.Tactic

namespace Cql.Sorted

variable {α β : Type} {cmp : α → α → Ordering}

def Increasing (cmp : α → α → Ordering) (items : List α) : Prop :=
  items.Pairwise fun a b => cmp a b = .lt

section Insert

variable {x y : α} {items before after : List α}

theorem mem_of_mem_insert (h : y ∈ (insert cmp x items).2) : y = x ∨ y ∈ items := by
  induction items with
  | nil => exact .inl (List.mem_singleton.mp h)
  | cons z items ih =>
    rw [insert] at h
    cases order : cmp z x with
    | lt =>
      rw [order] at h
      rcases List.mem_cons.mp h with rfl | h
      · exact .inr List.mem_cons_self
      · exact (ih h).imp_right (List.mem_cons_of_mem z)
    | eq =>
      rw [order] at h
      exact .inr h
    | gt =>
      rw [order] at h
      exact List.mem_cons.mp h

theorem increasing_insert [Std.TransCmp cmp] (increasing : Increasing cmp items) (x : α) :
    Increasing cmp (insert cmp x items).2 := by
  induction items with
  | nil => exact List.pairwise_singleton _ x
  | cons z items ih =>
    obtain ⟨least, rest⟩ := List.pairwise_cons.mp increasing
    rw [insert]
    cases order : cmp z x with
    | lt =>
      apply List.pairwise_cons.mpr
      constructor
      · intro y h
        rcases mem_of_mem_insert h with rfl | h
        · exact order
        · exact least y h
      · exact ih rest
    | eq => exact increasing
    | gt =>
      have less : cmp x z = .lt := Std.OrientedCmp.gt_iff_lt.mp order
      apply List.pairwise_cons.mpr
      constructor
      · intro y h
        rcases List.mem_cons.mp h with rfl | h
        · exact less
        · exact Std.TransCmp.lt_trans less (least y h)
      · exact increasing

theorem insert_found (less : ∀ a ∈ before, cmp a x = .lt) (equal : cmp y x = .eq) :
    insert cmp x (before ++ y :: after) = (false, before ++ y :: after) := by
  induction before with
  | nil => rw [List.nil_append, insert, equal]
  | cons a before ih =>
    obtain ⟨first, less⟩ := List.forall_mem_cons.mp less
    rw [List.cons_append, insert, first]
    simp only [ih less]

theorem insert_vacant (less : ∀ a ∈ before, cmp a x = .lt)
    (greater : ∀ a ∈ after, cmp a x = .gt) :
    insert cmp x (before ++ after) = (true, before ++ x :: after) := by
  induction before with
  | nil =>
    cases after with
    | nil => rfl
    | cons a after => rw [List.nil_append, insert, greater a List.mem_cons_self, List.nil_append]
  | cons a before ih =>
    obtain ⟨first, less⟩ := List.forall_mem_cons.mp less
    rw [List.cons_append, insert, first]
    simp only [ih less, List.cons_append]

theorem insert_last (greatest : ∀ y ∈ items, cmp y x = .lt) :
    insert cmp x items = (true, items ++ [x]) := by
  have behind : ∀ y ∈ ([] : List α), cmp y x = .gt := by simp
  simpa using insert_vacant greatest behind

theorem contains_iff : contains cmp x items ↔ ∃ y ∈ items, cmp y x = .eq := by
  simp [contains]

end Insert

section Put

variable {k l : α} {u v : β} {e : α × β} {entries before after : List (α × β)}

theorem mem_of_mem_put (h : e ∈ (put cmp k v entries).2) :
    e ∈ entries ∨ e.2 = v ∧ (e.1 = k ∨ cmp e.1 k = .eq ∧ ∃ u, (e.1, u) ∈ entries) := by
  induction entries with
  | nil =>
    obtain rfl := List.mem_singleton.mp h
    exact .inr ⟨rfl, .inl rfl⟩
  | cons f entries ih =>
    obtain ⟨l, u⟩ := f
    rw [put] at h
    cases order : cmp l k with
    | lt =>
      rw [order] at h
      rcases List.mem_cons.mp h with rfl | h
      · exact .inl List.mem_cons_self
      · rcases ih h with h | ⟨value, key⟩
        · exact .inl (List.mem_cons_of_mem _ h)
        · refine .inr ⟨value, key.imp_right ?_⟩
          rintro ⟨equal, w, h⟩
          exact ⟨equal, w, List.mem_cons_of_mem _ h⟩
    | eq =>
      rw [order] at h
      rcases List.mem_cons.mp h with rfl | h
      · exact .inr ⟨rfl, .inr ⟨order, u, List.mem_cons_self⟩⟩
      · exact .inl (List.mem_cons_of_mem _ h)
    | gt =>
      rw [order] at h
      rcases List.mem_cons.mp h with rfl | h
      · exact .inr ⟨rfl, .inl rfl⟩
      · exact .inl h

theorem keys_put (k : α) (v : β) (entries : List (α × β)) :
    (put cmp k v entries).2.map (·.1) = (insert cmp k (entries.map (·.1))).2 := by
  induction entries with
  | nil => rfl
  | cons f entries ih =>
    obtain ⟨l, u⟩ := f
    rw [put, List.map_cons, insert]
    cases cmp l k with
    | lt => exact congrArg (List.cons l) ih
    | eq => rfl
    | gt => rfl

theorem increasing_put [Std.TransCmp cmp] (increasing : Increasing cmp (entries.map (·.1)))
    (k : α) (v : β) : Increasing cmp ((put cmp k v entries).2.map (·.1)) := by
  rw [keys_put]
  exact increasing_insert increasing k

theorem put_found (less : ∀ e ∈ before, cmp e.1 k = .lt) (equal : cmp l k = .eq) :
    put cmp k v (before ++ (l, u) :: after) = (some u, before ++ (l, v) :: after) := by
  induction before with
  | nil => rw [List.nil_append, put, equal, List.nil_append]
  | cons e before ih =>
    obtain ⟨first, less⟩ := List.forall_mem_cons.mp less
    rw [List.cons_append, put, first]
    simp only [ih less, List.cons_append]

theorem put_vacant (less : ∀ e ∈ before, cmp e.1 k = .lt)
    (greater : ∀ e ∈ after, cmp e.1 k = .gt) :
    put cmp k v (before ++ after) = (none, before ++ (k, v) :: after) := by
  induction before with
  | nil =>
    cases after with
    | nil => rfl
    | cons e after => rw [List.nil_append, put, greater e List.mem_cons_self, List.nil_append]
  | cons e before ih =>
    obtain ⟨first, less⟩ := List.forall_mem_cons.mp less
    rw [List.cons_append, put, first]
    simp only [ih less, List.cons_append]

theorem put_last (greatest : ∀ e ∈ entries, cmp e.1 k = .lt) :
    put cmp k v entries = (none, entries ++ [(k, v)]) := by
  have behind : ∀ e ∈ ([] : List (α × β)), cmp e.1 k = .gt := by simp
  simpa using put_vacant greatest behind

theorem get?_of_mem [Std.TransCmp cmp] (increasing : Increasing cmp (entries.map (·.1)))
    (h : e ∈ entries) (equal : cmp e.1 k = .eq) : get? cmp k entries = some e.2 := by
  induction entries with
  | nil => exact absurd h List.not_mem_nil
  | cons f entries ih =>
    obtain ⟨least, rest⟩ := List.pairwise_cons.mp increasing
    unfold get? at *
    rcases List.mem_cons.mp h with rfl | h
    · simp [equal]
    · have less : cmp f.1 e.1 = .lt := least e.1 (List.mem_map_of_mem h)
      have other : cmp f.1 k = .lt := (Std.TransCmp.congr_right equal).symm.trans less
      simpa [other] using ih rest h

theorem exists_mem_of_get? (found : get? cmp k entries = some v) :
    ∃ e ∈ entries, cmp e.1 k = .eq ∧ e.2 = v := by
  obtain ⟨e, first, value⟩ := Option.map_eq_some_iff.mp found
  have equal : cmp e.1 k = .eq := by simpa using List.find?_some first
  exact ⟨e, List.mem_of_find?_eq_some first, equal, value⟩

theorem get?_eq_none (other : ∀ e ∈ entries, cmp e.1 k ≠ .eq) : get? cmp k entries = none := by
  have absent : entries.find? (fun e => cmp e.1 k == .eq) = none :=
    List.find?_eq_none.mpr fun e he => by simpa using other e he
  unfold get?
  rw [absent]
  rfl

end Put

section Unique

variable {γ : Type} {key : α → γ} {cmp : γ → γ → Ordering} {R : α → α → Prop} {xs ys : List α}
  {x y z w : α}

theorem least_key (increasing : Increasing cmp ((x :: xs).map key)) :
    ∀ z ∈ xs, cmp (key x) (key z) = .lt :=
  fun _ hz => (List.pairwise_cons.mp increasing).1 _ (List.mem_map_of_mem hz)

theorem mem_tail_of_equal [Std.TransCmp cmp] (increasing : Increasing cmp ((x :: xs).map key))
    (first : cmp (key x) (key y) = .eq) (hz : z ∈ xs) (equal : cmp (key z) (key w) = .eq)
    (hw : w ∈ y :: ys) : w ∈ ys := by
  rcases List.mem_cons.mp hw with rfl | hw
  · have same : cmp (key x) (key z) = .eq := (Std.TransCmp.congr_right equal).trans first
    exact absurd (least_key increasing z hz) (by simp [same])
  · exact hw

/-- Items of increasing lists that have partners with equal keys in each other's list are partners
place by place: there is one list in increasing order for each set of items. -/
theorem forall₂_of_partners [Std.TransCmp cmp] (equal : ∀ {x y}, R x y → cmp (key x) (key y) = .eq)
    (left : Increasing cmp (xs.map key)) (right : Increasing cmp (ys.map key))
    (forth : ∀ x ∈ xs, ∃ y ∈ ys, R x y) (back : ∀ y ∈ ys, ∃ x ∈ xs, R x y) :
    List.Forall₂ R xs ys := by
  induction xs generalizing ys with
  | nil =>
    cases ys with
    | nil => exact .nil
    | cons y ys =>
      obtain ⟨x, hx, -⟩ := back y List.mem_cons_self
      exact absurd hx List.not_mem_nil
  | cons x xs ih =>
    cases ys with
    | nil =>
      obtain ⟨y, hy, -⟩ := forth x List.mem_cons_self
      exact absurd hy List.not_mem_nil
    | cons y ys =>
      have first : R x y := by
        obtain ⟨z, hz, xz⟩ := forth x List.mem_cons_self
        obtain ⟨w, hw, wy⟩ := back y List.mem_cons_self
        rcases List.mem_cons.mp hz with rfl | hz
        · exact xz
        · rcases List.mem_cons.mp hw with rfl | hw
          · exact wy
          · -- otherwise each of the two first items is less than the other
            have less : cmp (key x) (key y) = .lt :=
              (Std.TransCmp.congr_right (equal wy)).symm.trans (least_key left w hw)
            have more : cmp (key y) (key x) = .lt :=
              (Std.TransCmp.congr_right (equal xz)).trans (least_key right z hz)
            exact absurd more (by simp [Std.OrientedCmp.gt_of_lt less])
      refine .cons first (ih (List.Pairwise.tail left) (List.Pairwise.tail right) ?_ ?_)
      · intro z hz
        obtain ⟨w, hw, zw⟩ := forth z (List.mem_cons_of_mem x hz)
        exact ⟨w, mem_tail_of_equal left (equal first) hz (equal zw) hw, zw⟩
      · intro z hz
        obtain ⟨w, hw, wz⟩ := back z (List.mem_cons_of_mem y hz)
        have first' := Std.OrientedCmp.eq_symm (equal first)
        have wz' := Std.OrientedCmp.eq_symm (equal wz)
        exact ⟨w, mem_tail_of_equal right first' hz wz' hw, wz⟩

theorem forall₂_iff_partners [Std.TransCmp cmp]
    (equal : ∀ {x y}, R x y → cmp (key x) (key y) = .eq) (left : Increasing cmp (xs.map key))
    (right : Increasing cmp (ys.map key)) :
    List.Forall₂ R xs ys ↔ (∀ x ∈ xs, ∃ y ∈ ys, R x y) ∧ ∀ y ∈ ys, ∃ x ∈ xs, R x y :=
  ⟨fun partners =>
      ⟨fun _ hx => exists_of_forall₂ partners.flip hx, fun _ hy => exists_of_forall₂ partners hy⟩,
    fun ⟨forth, back⟩ => forall₂_of_partners equal left right forth back⟩

end Unique

end Cql.Sorted
