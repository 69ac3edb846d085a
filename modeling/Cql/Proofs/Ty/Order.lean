import Cql.Proofs.Ordering
import Cql.Ty.Order

namespace Cql

namespace Label

theorem cmp_swap (a b : Label) : a.cmp b = (b.cmp a).swap := by
  unfold cmp
  rw [Ordering.swap_then, ← Std.OrientedOrd.eq_swap, ← Std.OrientedOrd.eq_swap]

theorem cmp_chained (a b c : Label) : Chained (a.cmp b) (b.cmp c) (a.cmp c) :=
  (Chained.of_compare a.keyspace b.keyspace c.keyspace).then
    (Chained.of_compare a.name b.name c.name)

theorem cmpOption_swap (a b : Option Label) : cmpOption a b = (cmpOption b a).swap := by
  cases a <;> cases b <;> first | rfl | exact cmp_swap _ _

theorem cmpOption_chained (a b c : Option Label) :
    Chained (cmpOption a b) (cmpOption b c) (cmpOption a c) := by
  cases a <;> cases b <;> cases c <;>
    first
    | exact cmp_chained _ _ _
    | exact ⟨by simp [cmpOption], by simp [cmpOption], by simp [cmpOption], by simp [cmpOption]⟩

end Label

namespace Ty

mutual

theorem cmp_swap : ∀ a b : Ty, a.cmp b = (b.cmp a).swap
  | .scalar a, b => by
    cases b with
    | scalar b => exact Std.OrientedOrd.eq_swap
    | _ => rfl
  | .list a, b => by
    cases b with
    | list b => exact cmp_swap a b
    | _ => rfl
  | .set a, b => by
    cases b with
    | set b => exact cmp_swap a b
    | _ => rfl
  | .map k v, b => by
    cases b with
    | map l u => simp only [cmp, Ordering.swap_then, ← cmp_swap k l, ← cmp_swap v u]
    | _ => rfl
  | .tuple as, b => by
    cases b with
    | tuple bs => exact cmpAll_swap as bs
    | _ => rfl
  | .user l fs, b => by
    cases b with
    | user m gs =>
      simp only [cmp, Ordering.swap_then, ← Label.cmpOption_swap l m, ← cmpFields_swap fs gs]
    | _ => rfl

theorem cmpAll_swap : ∀ as bs : List Ty, cmpAll as bs = (cmpAll bs as).swap
  | [], [] => rfl
  | [], _ :: _ => rfl
  | _ :: _, [] => rfl
  | a :: as, b :: bs => by
    simp only [cmpAll, Ordering.swap_then, ← cmp_swap a b, ← cmpAll_swap as bs]

theorem cmpFields_swap : ∀ as bs : List (String × Ty), cmpFields as bs = (cmpFields bs as).swap
  | [], [] => rfl
  | [], _ :: _ => rfl
  | _ :: _, [] => rfl
  | (n, a) :: as, (m, b) :: bs => by
    simp only [cmpFields, Ordering.swap_then, ← Std.OrientedOrd.eq_swap (a := n), ← cmp_swap a b,
      ← cmpFields_swap as bs]

end

theorem rank_then_cmp (a b : Ty) : (compare a.rank b.rank).then (a.cmp b) = a.cmp b := by
  cases a <;> cases b <;> rfl

/-- Types of three families are ordered as the families are, so that only three types of one
family are left to look at. -/
theorem chained_of_rank {a b c : Ty}
    (within : a.rank = b.rank → b.rank = c.rank → Chained (a.cmp b) (b.cmp c) (a.cmp c)) :
    Chained (a.cmp b) (b.cmp c) (a.cmp c) := by
  rw [← rank_then_cmp a b, ← rank_then_cmp b c, ← rank_then_cmp a c]
  refine (Chained.of_compare a.rank b.rank c.rank).then_of_eq fun ab bc => within ?_ ?_
  · exact Std.LawfulEqOrd.eq_of_compare ab
  · exact Std.LawfulEqOrd.eq_of_compare bc

mutual

theorem cmp_chained (a b c : Ty) : Chained (a.cmp b) (b.cmp c) (a.cmp c) := by
  apply chained_of_rank
  intro ab bc
  match a, b, c with
  | .scalar a, .scalar b, .scalar c => exact Chained.of_compare a.code b.code c.code
  | .list a, .list b, .list c => exact cmp_chained a b c
  | .set a, .set b, .set c => exact cmp_chained a b c
  | .map k v, .map l u, .map m w => exact (cmp_chained k l m).then (cmp_chained v u w)
  | .tuple as, .tuple bs, .tuple cs => exact cmpAll_chained as bs cs
  | .user l as, .user m bs, .user n cs =>
    exact (Label.cmpOption_chained l m n).then (cmpFields_chained as bs cs)

theorem cmpAll_chained (as bs cs : List Ty) :
    Chained (cmpAll as bs) (cmpAll bs cs) (cmpAll as cs) := by
  apply Chained.of_lists rfl (fun _ _ => rfl) (fun _ _ => rfl)
  intro _ _ _
  match as, bs, cs with
  | a :: as, b :: bs, c :: cs => exact (cmp_chained a b c).then (cmpAll_chained as bs cs)

theorem cmpFields_chained (as bs cs : List (String × Ty)) :
    Chained (cmpFields as bs) (cmpFields bs cs) (cmpFields as cs) := by
  apply Chained.of_lists rfl (fun _ _ => rfl) (fun _ _ => rfl)
  intro _ _ _
  match as, bs, cs with
  | (m, a) :: as, (n, b) :: bs, (o, c) :: cs =>
    exact ((Chained.of_compare m n o).then (cmp_chained a b c)).then (cmpFields_chained as bs cs)

end

instance : Std.TransCmp cmp := transCmp_of_chained cmp_swap cmp_chained

end Ty

namespace UserType

theorem cmp_swap (a b : UserType) : a.cmp b = (b.cmp a).swap := by
  unfold cmp
  rw [Ordering.swap_then, ← Label.cmpOption_swap, ← Ty.cmpFields_swap]

theorem cmp_chained (a b c : UserType) : Chained (a.cmp b) (b.cmp c) (a.cmp c) :=
  (Label.cmpOption_chained a.label b.label c.label).then
    (Ty.cmpFields_chained a.fields b.fields c.fields)

instance : Std.TransCmp cmp := transCmp_of_chained cmp_swap cmp_chained

end UserType

end Cql
