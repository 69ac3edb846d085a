import Cql.Proofs.Double.Order
import Cql.Proofs.Ty.Order
import Cql.Value.Order

namespace Cql

namespace Value

/-- Values built alike; integers of different widths are alike but not of one kind. -/
inductive Alike : Value → Value → Prop
  | null : Alike .null .null
  | bool (a b : Bool) : Alike (.bool a) (.bool b)
  | long (a b : Long) : Alike (.long a) (.long b)
  | double (a b : Double) : Alike (.double a) (.double b)
  | text (a b : String) : Alike (.text a) (.text b)
  | blob (a b : List UInt8) : Alike (.blob a) (.blob b)
  | fixed {w v : Width} (a : Fixed w) (b : Fixed v) : Alike (.fixed w a) (.fixed v b)
  | type (t u : Ty) : Alike (.type t) (.type u)
  | list (t u : Ty) (xs ys : List Value) : Alike (.list t xs) (.list u ys)
  | set (t u : Ty) (xs ys : List Value) : Alike (.set t xs) (.set u ys)
  | map (k l t u : Ty) (es fs : List (Value × Value)) : Alike (.map k t es) (.map l u fs)
  | tuple (ts us : List Ty) (xs ys : List Value) : Alike (.tuple ts xs) (.tuple us ys)
  | user (u v : UserType) (xs ys : List Value) : Alike (.user u xs) (.user v ys)

theorem alike_of_kind_eq {a b : Value} (same : a.kind = b.kind) : Alike a b := by
  cases a with
  | fixed w _ =>
    cases b with
    | fixed v _ => exact .fixed _ _
    | _ => cases w <;> contradiction
  | _ =>
    cases b with
    | fixed v _ => cases v <;> contradiction
    | _ => first | constructor | contradiction

theorem cmp_of_not_alike {a b : Value} (other : ¬ Alike a b) :
    a.cmp b = compare a.kind.rank b.kind.rank := by
  cases a <;> cases b <;> first | rfl | exact absurd (by constructor) other

mutual

theorem cmp_swap (a b : Value) : a.cmp b = (b.cmp a).swap := by
  by_cases alike : Alike a b
  · match a, b, alike with
    | _, _, .null => rfl
    | _, _, .bool _ _ => exact Std.OrientedOrd.eq_swap
    | _, _, .long _ _ => exact Std.OrientedOrd.eq_swap
    | _, _, .double x y => exact Double.cmp_swap x y
    | _, _, .text _ _ => exact Std.OrientedOrd.eq_swap
    | _, _, .blob _ _ => exact Std.OrientedOrd.eq_swap
    | _, _, .fixed _ _ =>
      rw [cmp, cmp, Ordering.swap_then, ← Std.OrientedOrd.eq_swap, ← Std.OrientedOrd.eq_swap]
    | _, _, .type t u => exact Ty.cmp_swap t u
    | .list t xs, .list u ys, .list .. =>
      rw [cmp, cmp, Ordering.swap_then, ← Ty.cmp_swap t u, ← cmpAll_swap xs ys]
    | .set t xs, .set u ys, .set .. =>
      rw [cmp, cmp, Ordering.swap_then, ← Ty.cmp_swap t u, ← cmpAll_swap xs ys]
    | .map k t es, .map l u fs, .map .. =>
      rw [cmp, cmp, Ordering.swap_then, Ordering.swap_then, ← Ty.cmp_swap k l, ← Ty.cmp_swap t u,
        ← cmpEntries_swap es fs]
    | .tuple ts xs, .tuple us ys, .tuple .. =>
      rw [cmp, cmp, Ordering.swap_then, ← Ty.cmpAll_swap ts us, ← cmpAll_swap xs ys]
    | .user u xs, .user v ys, .user .. =>
      rw [cmp, cmp, Ordering.swap_then, ← UserType.cmp_swap u v, ← cmpAll_swap xs ys]
  · have other : ¬ Alike b a := fun h => alike (by cases h <;> constructor)
    rw [cmp_of_not_alike alike, cmp_of_not_alike other]
    exact Std.OrientedOrd.eq_swap

theorem cmpAll_swap : ∀ xs ys : List Value, cmpAll xs ys = (cmpAll ys xs).swap
  | [], [] => rfl
  | [], _ :: _ => rfl
  | _ :: _, [] => rfl
  | x :: xs, y :: ys => by
    rw [cmpAll, cmpAll, Ordering.swap_then, ← cmp_swap x y, ← cmpAll_swap xs ys]

theorem cmpEntries_swap :
    ∀ es fs : List (Value × Value), cmpEntries es fs = (cmpEntries fs es).swap
  | [], [] => rfl
  | [], _ :: _ => rfl
  | _ :: _, [] => rfl
  | (k, v) :: es, (l, u) :: fs => by
    rw [cmpEntries, cmpEntries, Ordering.swap_then, Ordering.swap_then, ← cmp_swap k l,
      ← cmp_swap v u, ← cmpEntries_swap es fs]

end

theorem rank_then_cmp (a b : Value) :
    (compare a.kind.rank b.kind.rank).then (a.cmp b) = a.cmp b := by
  by_cases same : a.kind = b.kind
  · rw [same, Std.ReflOrd.compare_self]
    rfl
  · by_cases alike : Alike a b
    · cases alike with
      | @fixed w v x y =>
        change (compare (Kind.ofWidth w).rank (Kind.ofWidth v).rank).then _ = _
        rw [cmp]
        cases compare (Kind.ofWidth w).rank (Kind.ofWidth v).rank <;> rfl
      | _ => exact absurd rfl same
    · rw [cmp_of_not_alike alike]
      cases compare a.kind.rank b.kind.rank <;> rfl

/-- Values of three kinds are ordered as the kinds are, so that only three values of one kind are
left to look at. -/
theorem chained_of_kind {a b c : Value}
    (within : Alike a b → Alike b c → Chained (a.cmp b) (b.cmp c) (a.cmp c)) :
    Chained (a.cmp b) (b.cmp c) (a.cmp c) := by
  rw [← rank_then_cmp a b, ← rank_then_cmp b c, ← rank_then_cmp a c]
  apply (Chained.of_compare a.kind.rank b.kind.rank c.kind.rank).then_of_eq
  intro ab bc
  apply within
  · exact alike_of_kind_eq (Kind.rank_injective (Std.LawfulEqOrd.eq_of_compare ab))
  · exact alike_of_kind_eq (Kind.rank_injective (Std.LawfulEqOrd.eq_of_compare bc))

mutual

theorem cmp_chained (a b c : Value) : Chained (a.cmp b) (b.cmp c) (a.cmp c) := by
  apply chained_of_kind
  intro ab bc
  match a, b, ab with
  | _, _, .null => cases bc with
    | null => exact Chained.eq_left _
  | _, _, .bool a b => cases bc with
    | bool _ c => exact Chained.of_compare a b c
  | _, _, .long a b => cases bc with
    | long _ c => exact Chained.of_compare a.val b.val c.val
  | _, _, .double a b => cases bc with
    | double _ c => exact Double.cmp_chained a b c
  | _, _, .text a b => cases bc with
    | text _ c => exact Chained.of_compare a b c
  | _, _, .blob a b => cases bc with
    | blob _ c => exact Chained.of_compare a b c
  | _, _, @Alike.fixed u v a b => cases bc with
    | @fixed _ w _ c =>
      exact (Chained.of_compare (Kind.ofWidth u).rank (Kind.ofWidth v).rank
        (Kind.ofWidth w).rank).then (Chained.of_compare a.val b.val c.val)
  | _, _, .type t u => cases bc with
    | type _ v => exact Ty.cmp_chained t u v
  | .list t xs, .list u ys, .list .. => cases bc with
    | list _ v _ zs => exact (Ty.cmp_chained t u v).then (cmpAll_chained xs ys zs)
  | .set t xs, .set u ys, .set .. => cases bc with
    | set _ v _ zs => exact (Ty.cmp_chained t u v).then (cmpAll_chained xs ys zs)
  | .map k t es, .map l u fs, .map .. => cases bc with
    | map _ m _ v _ gs =>
      exact ((Ty.cmp_chained k l m).then (Ty.cmp_chained t u v)).then
        (cmpEntries_chained es fs gs)
  | .tuple ts xs, .tuple us ys, .tuple .. => cases bc with
    | tuple _ vs _ zs => exact (Ty.cmpAll_chained ts us vs).then (cmpAll_chained xs ys zs)
  | .user t xs, .user u ys, .user .. => cases bc with
    | user _ v _ zs => exact (UserType.cmp_chained t u v).then (cmpAll_chained xs ys zs)

theorem cmpAll_chained (xs ys zs : List Value) :
    Chained (cmpAll xs ys) (cmpAll ys zs) (cmpAll xs zs) := by
  apply Chained.of_lists rfl (fun _ _ => rfl) (fun _ _ => rfl)
  intro _ _ _
  match xs, ys, zs with
  | x :: xs, y :: ys, z :: zs => exact (cmp_chained x y z).then (cmpAll_chained xs ys zs)

theorem cmpEntries_chained (es fs gs : List (Value × Value)) :
    Chained (cmpEntries es fs) (cmpEntries fs gs) (cmpEntries es gs) := by
  apply Chained.of_lists rfl (fun _ _ => rfl) (fun _ _ => rfl)
  intro _ _ _
  match es, fs, gs with
  | (k, t) :: es, (l, u) :: fs, (m, v) :: gs =>
    exact ((cmp_chained k l m).then (cmp_chained t u v)).then (cmpEntries_chained es fs gs)

end

instance : Std.TransCmp cmp := transCmp_of_chained cmp_swap cmp_chained

theorem cmp_self (a : Value) : a.cmp a = .eq := Std.ReflCmp.compare_self

theorem cmp_ne_gt_trans {a b c : Value} (ab : a.cmp b ≠ .gt) (bc : b.cmp c ≠ .gt) :
    a.cmp c ≠ .gt := by
  have first := Ordering.ne_gt_iff_isLE.mp ab
  have second := Ordering.ne_gt_iff_isLE.mp bc
  exact Ordering.ne_gt_iff_isLE.mpr ((cmp_chained a b c).isLE first second)

/-- Values are totally ordered. Doubles among them stand as their values do, with -0.0 before 0.0
and with every NaN above all numbers. -/
theorem cmp_total_order :
    (∀ a : Value, a.cmp a = .eq) ∧
    (∀ a b : Value, a.cmp b = (b.cmp a).swap) ∧
    (∀ a b c : Value, a.cmp b ≠ .gt → b.cmp c ≠ .gt → a.cmp c ≠ .gt) ∧
    (∀ x y : Double, x.isNaN = false → y.isNaN = false →
      ((double x).cmp (double y) = .lt ↔
        x.value < y.value ∨ (x = Double.negativeZero ∧ y = Double.zero))) ∧
    (∀ x y : Double, y.isNaN = true →
      (double x).cmp (double y) = if x.isNaN then .eq else .lt) := by
  refine ⟨cmp_self, cmp_swap, fun _ _ _ => cmp_ne_gt_trans, ?_, ?_⟩
  · intro x y hx hy
    exact Double.cmp_eq_lt_iff_value hx hy
  · intro x y hy
    cases hx : x.isNaN
    · exact Double.cmp_eq_lt_of_isNaN hx hy
    · exact Double.cmp_eq_of_isNaN hx hy

theorem cmp_total_order_nested :
    let set (d : Double) : Value :=
      .set (.list (.scalar .double)) [.list (.scalar .double) [.double d]]
    (set .negativeZero).cmp (set .zero) ≠ .gt ∧ (set .zero).cmp (set (.nan true)) ≠ .gt ∧
      (set .negativeZero).cmp (set (.nan true)) ≠ .gt ∧
      (double .negativeZero).cmp (double .zero) = .lt ∧
      (double (.infinity false)).cmp (double (.nan true)) = .lt := by
  intro set
  obtain ⟨_, _, trans, number, nan⟩ := cmp_total_order
  have first : (set .negativeZero).cmp (set .zero) ≠ .gt := by decide
  have second : (set .zero).cmp (set (.nan true)) ≠ .gt := by decide
  refine ⟨first, second, trans _ _ _ first second, ?_, ?_⟩
  · exact (number _ _ (by decide) (by decide)).mpr (.inr ⟨rfl, rfl⟩)
  · exact nan _ _ (by decide)

end Value

end Cql
