import Cql.Ty

namespace Cql

namespace Label

def cmp (a b : Label) : Ordering :=
  (compare a.keyspace b.keyspace).then (compare a.name b.name)

theorem cmp_eq_iff {a b : Label} : a.cmp b = .eq ↔ a = b := by
  cases a
  cases b
  simp [cmp, Ordering.then_eq_eq]

def cmpOption : Option Label → Option Label → Ordering
  | none, none => .eq
  | none, some _ => .lt
  | some _, none => .gt
  | some a, some b => a.cmp b

theorem cmpOption_eq_iff {a b : Option Label} : cmpOption a b = .eq ↔ a = b := by
  cases a <;> cases b <;> simp [cmpOption, cmp_eq_iff]

end Label

namespace Ty

def rank : Ty → Nat
  | .scalar _ => 0
  | .list _ => 1
  | .set _ => 2
  | .map _ _ => 3
  | .tuple _ => 4
  | .user _ _ => 5

mutual

def cmp : Ty → Ty → Ordering
  | .scalar a, .scalar b => compare a.code b.code
  | .list a, .list b => a.cmp b
  | .set a, .set b => a.cmp b
  | .map k v, .map k' v' => (k.cmp k').then (v.cmp v')
  | .tuple as, .tuple bs => cmpAll as bs
  | .user l fs, .user l' fs' => (Label.cmpOption l l').then (cmpFields fs fs')
  | a, b => compare a.rank b.rank

def cmpAll : List Ty → List Ty → Ordering
  | [], [] => .eq
  | [], _ :: _ => .lt
  | _ :: _, [] => .gt
  | a :: as, b :: bs => (a.cmp b).then (cmpAll as bs)

def cmpFields : List (String × Ty) → List (String × Ty) → Ordering
  | [], [] => .eq
  | [], _ :: _ => .lt
  | _ :: _, [] => .gt
  | (n, a) :: as, (m, b) :: bs => ((compare n m).then (a.cmp b)).then (cmpFields as bs)

end

mutual

theorem cmp_eq_iff : ∀ a b : Ty, a.cmp b = .eq ↔ a = b
  | .scalar a, b => by
    cases b with
    | scalar b => simpa [cmp] using ⟨Scalar.code_injective, congrArg Scalar.code⟩
    | _ => simp [cmp, rank]
  | .list a, b => by
    cases b with
    | list b => simpa [cmp] using cmp_eq_iff a b
    | _ => simp [cmp, rank]
  | .set a, b => by
    cases b with
    | set b => simpa [cmp] using cmp_eq_iff a b
    | _ => simp [cmp, rank]
  | .map k v, b => by
    cases b with
    | map k' v' => simp [cmp, Ordering.then_eq_eq, cmp_eq_iff k k', cmp_eq_iff v v']
    | _ => simp [cmp, rank]
  | .tuple as, b => by
    cases b with
    | tuple bs => simpa [cmp] using cmpAll_eq_iff as bs
    | _ => simp [cmp, rank]
  | .user l fs, b => by
    cases b with
    | user l' fs' =>
      simp [cmp, Ordering.then_eq_eq, Label.cmpOption_eq_iff, cmpFields_eq_iff fs fs']
    | _ => simp [cmp, rank]

theorem cmpAll_eq_iff : ∀ as bs : List Ty, cmpAll as bs = .eq ↔ as = bs
  | [], [] => by simp [cmpAll]
  | [], _ :: _ => by simp [cmpAll]
  | _ :: _, [] => by simp [cmpAll]
  | a :: as, b :: bs => by
    simp [cmpAll, Ordering.then_eq_eq, cmp_eq_iff a b, cmpAll_eq_iff as bs]

theorem cmpFields_eq_iff : ∀ as bs : List (String × Ty), cmpFields as bs = .eq ↔ as = bs
  | [], [] => by simp [cmpFields]
  | [], _ :: _ => by simp [cmpFields]
  | _ :: _, [] => by simp [cmpFields]
  | (n, a) :: as, (m, b) :: bs => by
    simp [cmpFields, Ordering.then_eq_eq, cmp_eq_iff a b, cmpFields_eq_iff as bs]

end

instance : DecidableEq Ty := fun a b => decidable_of_iff _ (cmp_eq_iff a b)

end Ty

namespace UserType

def cmp (a b : UserType) : Ordering :=
  (Label.cmpOption a.label b.label).then (Ty.cmpFields a.fields b.fields)

theorem cmp_eq_iff {a b : UserType} : a.cmp b = .eq ↔ a = b := by
  cases a
  cases b
  simp [cmp, Ordering.then_eq_eq, Label.cmpOption_eq_iff, Ty.cmpFields_eq_iff]

instance : DecidableEq UserType := fun _ _ => decidable_of_iff _ cmp_eq_iff

end UserType

end Cql
