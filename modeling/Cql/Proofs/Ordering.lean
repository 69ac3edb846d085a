/-!
Chains of comparisons. What comes out of comparing `a` with `b`, `b` with `c` and `a` with `c` is
chained if the three can stand in one order. A lexicographic order keeps this for each component,
so that an order of trees is transitive by induction over three trees at once.
-/

namespace Cql

structure Chained (ab bc ac : Ordering) : Prop where
  left_eq : ab = .eq → ac = bc
  right_eq : bc = .eq → ac = ab
  both_lt : ab = .lt → bc = .lt → ac = .lt
  both_gt : ab = .gt → bc = .gt → ac = .gt

namespace Chained

variable {ab bc ac ab' bc' ac' : Ordering}

theorem eq_left (bc : Ordering) : Chained .eq bc bc :=
  ⟨fun _ => rfl, fun equal => equal, by simp, by simp⟩

theorem eq_right (ab : Ordering) : Chained ab .eq ab :=
  ⟨fun equal => equal, fun _ => rfl, by simp, by simp⟩

theorem lt_left (bc : Ordering) : Chained .lt bc .lt := ⟨by simp, by simp, by simp, by simp⟩

theorem lt_right (ab : Ordering) : Chained ab .lt .lt := ⟨by simp, by simp, by simp, by simp⟩

theorem gt_left (bc : Ordering) : Chained .gt bc .gt := ⟨by simp, by simp, by simp, by simp⟩

theorem gt_right (ab : Ordering) : Chained ab .gt .gt := ⟨by simp, by simp, by simp, by simp⟩

theorem lt_gt (ac : Ordering) : Chained .lt .gt ac := ⟨by simp, by simp, by simp, by simp⟩

theorem gt_lt (ac : Ordering) : Chained .gt .lt ac := ⟨by simp, by simp, by simp, by simp⟩

theorem of_compare {α : Type} [Ord α] [Std.TransOrd α] (a b c : α) :
    Chained (compare a b) (compare b c) (compare a c) where
  left_eq := Std.TransCmp.congr_left
  right_eq h := (Std.TransCmp.congr_right h).symm
  both_lt := Std.TransCmp.lt_trans
  both_gt := Std.TransCmp.gt_trans

theorem then_of_eq (first : Chained ab bc ac)
    (second : ab = .eq → bc = .eq → Chained ab' bc' ac') :
    Chained (ab.then ab') (bc.then bc') (ac.then ac') := by
  cases ab with
  | eq =>
    rw [first.left_eq rfl]
    cases bc with
    | eq => exact second rfl rfl
    | lt => exact lt_right _
    | gt => exact gt_right _
  | lt =>
    cases bc with
    | eq => rw [first.right_eq rfl]; exact lt_left _
    | lt => rw [first.both_lt rfl rfl]; exact lt_left _
    | gt => exact lt_gt _
  | gt =>
    cases bc with
    | eq => rw [first.right_eq rfl]; exact gt_left _
    | gt => rw [first.both_gt rfl rfl]; exact gt_left _
    | lt => exact gt_lt _

protected theorem «then» (first : Chained ab bc ac) (second : Chained ab' bc' ac') :
    Chained (ab.then ab') (bc.then bc') (ac.then ac') :=
  first.then_of_eq fun _ _ => second

theorem of_lists {α : Type} {cmp : List α → List α → Ordering} (nil_nil : cmp [] [] = .eq)
    (nil_cons : ∀ b bs, cmp [] (b :: bs) = .lt) (cons_nil : ∀ a as, cmp (a :: as) [] = .gt)
    {as bs cs : List α}
    (within : as ≠ [] → bs ≠ [] → cs ≠ [] → Chained (cmp as bs) (cmp bs cs) (cmp as cs)) :
    Chained (cmp as bs) (cmp bs cs) (cmp as cs) := by
  cases as with
  | nil =>
    cases bs with
    | nil => rw [nil_nil]; exact eq_left _
    | cons b bs =>
      rw [nil_cons]
      cases cs with
      | nil => rw [cons_nil]; exact lt_gt _
      | cons c cs => rw [nil_cons]; exact lt_left _
  | cons a as =>
    cases bs with
    | nil =>
      rw [cons_nil]
      cases cs with
      | nil => rw [nil_nil, cons_nil]; exact eq_right _
      | cons c cs => rw [nil_cons]; exact gt_lt _
    | cons b bs =>
      cases cs with
      | nil => rw [cons_nil, cons_nil]; exact gt_right _
      | cons c cs => exact within (by simp) (by simp) (by simp)

theorem isLE (chained : Chained ab bc ac) (first : ab.isLE) (second : bc.isLE) : ac.isLE := by
  cases ab with
  | eq => rw [chained.left_eq rfl]; exact second
  | gt => contradiction
  | lt =>
    cases bc with
    | eq => rw [chained.right_eq rfl]; rfl
    | lt => rw [chained.both_lt rfl rfl]; rfl
    | gt => contradiction

end Chained

theorem transCmp_of_chained {α : Type} {cmp : α → α → Ordering}
    (swap : ∀ a b, cmp a b = (cmp b a).swap)
    (chained : ∀ a b c, Chained (cmp a b) (cmp b c) (cmp a c)) : Std.TransCmp cmp where
  eq_swap := swap _ _
  isLE_trans := (chained _ _ _).isLE

end Cql
