import Mathlib.Data.List.Forall2
import Mathlib.Data.List.Induction
import Mathlib.Tactic

namespace Cql

variable {ε α β : Type}

theorem bind_eq_ok_iff {x : Except ε α} {f : α → Except ε β} {b : β} :
    x >>= f = .ok b ↔ ∃ a, x = .ok a ∧ f a = .ok b := by
  cases x <;> simp [bind, Except.bind]

theorem map_eq_ok_iff {f : α → β} {x : Except ε α} {b : β} :
    x.map f = .ok b ↔ ∃ a, x = .ok a ∧ f a = b := by
  cases x <;> simp [Except.map]

theorem map_eq_error_iff {f : α → β} {x : Except ε α} {fault : ε} :
    x.map f = .error fault ↔ x = .error fault := by
  cases x <;> simp [Except.map]

section Options

variable {R : α → β → Prop} {x : Option α} {y : Option β}

theorem option_mapM_eq_ok_iff {f : α → Except ε β} :
    x.mapM f = .ok y ↔ Option.Rel (fun a b => f a = .ok b) x y := by
  cases x with
  | none => cases y <;> simp [pure, Except.pure]
  | some a => cases y <;> simp [map_eq_ok_iff, Functor.map]

theorem option_rel_and_iff {P : β → Prop} :
    Option.Rel (fun a b => R a b ∧ P b) x y ↔ Option.Rel R x y ∧ ∀ b ∈ y, P b := by
  cases x <;> cases y <;> simp

theorem exists_of_option_rel (h : Option.Rel R x y) {b : β} (hb : b ∈ y) : ∃ a ∈ x, R a b := by
  cases h with
  | none => contradiction
  | some related => exact ⟨_, rfl, Option.some.inj hb ▸ related⟩

theorem option_rel_imp {S : α → β → Prop} (imp : ∀ a b, R a b → S a b) (h : Option.Rel R x y) :
    Option.Rel S x y := by
  cases h with
  | none => exact .none
  | some related => exact .some (imp _ _ related)

end Options

section Folds

theorem foldlM_invariant {f : β → α → Except ε β} {P : β → Prop} {xs : List α} {b c : β}
    (step : ∀ x ∈ xs, ∀ b c, P b → f b x = .ok c → P c) (start : P b)
    (h : xs.foldlM f b = .ok c) : P c := by
  induction xs generalizing b with
  | nil => exact Except.ok.inj h ▸ start
  | cons x xs ih =>
    rw [List.foldlM_cons] at h
    obtain ⟨d, first, rest⟩ := bind_eq_ok_iff.mp h
    exact ih (fun y hy => step y (List.mem_cons_of_mem x hy))
      (step x List.mem_cons_self b d start first) rest

/-- Steps that can be refused, against steps that cannot. -/
theorem foldlM_eq_ok_iff {f : β → α → Except ε β} {g : β → α → β} {done : α → Prop} {b c : β}
    {xs : List α}
    (step : ∀ (ys : List α) (x : α) (c : β),
      f (ys.foldl g b) x = .ok c ↔ done x ∧ c = g (ys.foldl g b) x) :
    xs.foldlM f b = .ok c ↔ (∀ x ∈ xs, done x) ∧ c = xs.foldl g b := by
  induction xs using List.reverseRecOn generalizing c with
  | nil => simp [pure, Except.pure, eq_comm]
  | append_singleton xs x ih =>
    have last (d : β) : [x].foldlM f d = f d x := by simp
    rw [List.foldlM_append, bind_eq_ok_iff, List.foldl_append, List.foldl_cons, List.foldl_nil]
    simp only [ih, last]
    constructor
    · rintro ⟨d, ⟨before, rfl⟩, made⟩
      obtain ⟨here, same⟩ := (step xs x c).mp made
      exact ⟨List.forall_mem_append.mpr ⟨before, by simpa using here⟩, same⟩
    · rintro ⟨all, rfl⟩
      obtain ⟨before, here⟩ := List.forall_mem_append.mp all
      exact ⟨_, ⟨before, rfl⟩, (step xs x _).mpr ⟨by simpa using here, rfl⟩⟩

end Folds

section Items

variable {f : α → Except ε β} {R : α → β → Prop} {xs : List α} {ys : List β} {y : β}

theorem exists_of_forall₂ (h : List.Forall₂ R xs ys) (hy : y ∈ ys) : ∃ x ∈ xs, R x y := by
  induction h with
  | nil => exact absurd hy List.not_mem_nil
  | cons first _ ih =>
    rcases List.mem_cons.mp hy with rfl | hy
    · exact ⟨_, List.mem_cons_self, first⟩
    · obtain ⟨x, hx, related⟩ := ih hy
      exact ⟨x, List.mem_cons_of_mem _ hx, related⟩

theorem getElem?_of_forall₂ (h : List.Forall₂ R xs ys) {k : Nat} (held : ys[k]? = some y) :
    ∃ x, xs[k]? = some x ∧ R x y := by
  induction h generalizing k with
  | nil => simp at held
  | cons first _ ih =>
    cases k with
    | zero =>
      obtain rfl := Option.some.inj held
      exact ⟨_, rfl, first⟩
    | succ k => exact ih held

theorem mapM_eq_ok_iff :
    xs.mapM f = .ok ys ↔ List.Forall₂ (fun x y => f x = .ok y) xs ys := by
  induction xs generalizing ys with
  | nil => simp [pure, Except.pure, eq_comm]
  | cons x xs ih =>
    rw [List.mapM_cons, bind_eq_ok_iff]
    simp only [bind_eq_ok_iff, ih, pure, Except.pure, Except.ok.injEq]
    constructor
    · rintro ⟨y, first, zs, rest, rfl⟩
      exact .cons first rest
    · rintro (_ | ⟨first, rest⟩)
      exact ⟨_, first, _, rest, rfl⟩

theorem exists_of_mapM (h : xs.mapM f = .ok ys) (hy : y ∈ ys) : ∃ x ∈ xs, f x = .ok y :=
  exists_of_forall₂ (R := fun x y => f x = .ok y) (mapM_eq_ok_iff.mp h) hy

theorem forall₂_filterMap_toOption (done : ∀ x ∈ xs, ∃ y, f x = .ok y) :
    List.Forall₂ (fun x y => f x = .ok y) xs (xs.filterMap fun x => (f x).toOption) := by
  induction xs with
  | nil => exact .nil
  | cons x xs ih =>
    obtain ⟨⟨y, made⟩, rest⟩ := List.forall_mem_cons.mp done
    simpa [made, Except.toOption] using ih rest

end Items

end Cql
