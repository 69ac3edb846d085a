import Cql.Container
import Cql.Proofs.Value.Canonical

namespace Cql

theorem Value.exists_eq_long {v : Value} (h : v.kind = .long) : ∃ n, v = .long n := by
  cases v with
  | long n => exact ⟨n, rfl⟩
  | fixed w n => cases w <;> contradiction
  | _ => contradiction

theorem Value.eq_null_of_isNull {v : Value} (h : v.isNull) : v = .null := by
  cases v with
  | null => rfl
  | _ => contradiction

namespace Ty

variable {t : Ty} {v w : Value}

theorem validate_of_accepts (h : t.accepts v) : t.validate v = .ok () := if_pos h

theorem coerce_of_not_accepts (h : t.accepts v = false) :
    t.coerce v = .error (.mismatch t v.kind) := by
  unfold coerce validate
  rw [h]
  rfl

theorem accepts_of_coerce (h : t.coerce v = .ok w) : t.accepts v := by
  by_contra refused
  rw [coerce_of_not_accepts (by simpa using refused)] at h
  contradiction

theorem coerce_of_not_long (other : v.kind ≠ .long) (h : t.accepts v) : t.coerce v = .ok v := by
  unfold coerce
  rw [validate_of_accepts h]
  simp only [bind, Except.bind]
  split <;> first | rfl | exact absurd rfl other

theorem coerce_long {n : Long} (h : t.coerce (.long n) = .ok w) :
    (∃ m : Fixed .int, t = .scalar .int ∧ m.val = n.val ∧ w = .fixed .int m) ∨
      ((t = .scalar .bigint ∨ t = .scalar .counter) ∧ w = .fixed .bigint n) ∨
        (t ≠ .scalar .int ∧ t ≠ .scalar .bigint ∧ t ≠ .scalar .counter ∧ w = .long n) := by
  have accepted := accepts_of_coerce h
  unfold coerce at h
  rw [validate_of_accepts accepted] at h
  simp only [bind, Except.bind] at h
  split at h
  · rename_i m same
    cases same
    cases made : Fixed.ofInt .int n.val with
    | ok m =>
      rw [made] at h
      exact .inl ⟨m, rfl, Fixed.checked_eq_ok_iff.mp made, (Except.ok.inj h).symm⟩
    | error fault =>
      rw [made] at h
      contradiction
  · rename_i same
    cases same
    exact .inr (.inl ⟨.inl rfl, (Except.ok.inj h).symm⟩)
  · rename_i same
    cases same
    exact .inr (.inl ⟨.inr rfl, (Except.ok.inj h).symm⟩)
  · rename_i int bigint counter
    refine .inr (.inr ⟨?_, ?_, ?_, (Except.ok.inj h).symm⟩)
    · exact fun same => int n same rfl
    · exact fun same => bigint n same rfl
    · exact fun same => counter n same rfl

theorem coerce_eq_self_or_fixed (h : t.coerce v = .ok w) :
    w = v ∨ ∃ width n, w = .fixed width n := by
  by_cases long : v.kind = .long
  · obtain ⟨n, rfl⟩ := Value.exists_eq_long long
    rcases coerce_long h with ⟨m, -, -, rfl⟩ | ⟨-, rfl⟩ | ⟨-, -, -, rfl⟩
    · exact .inr ⟨_, _, rfl⟩
    · exact .inr ⟨_, _, rfl⟩
    · exact .inl rfl
  · rw [coerce_of_not_long long (accepts_of_coerce h)] at h
    exact .inl (Except.ok.inj h).symm

/-- What is stored is its own stored form. -/
theorem coerce_idem (h : t.coerce v = .ok w) : t.coerce w = .ok w := by
  by_cases long : v.kind = .long
  · obtain ⟨n, rfl⟩ := Value.exists_eq_long long
    rcases coerce_long h with ⟨m, rfl, -, rfl⟩ | ⟨rfl | rfl, rfl⟩ | ⟨-, -, -, rfl⟩
    · rfl
    · rfl
    · rfl
    · exact h
  · have accepted := accepts_of_coerce h
    rw [coerce_of_not_long long accepted] at h
    obtain rfl := Except.ok.inj h
    exact coerce_of_not_long long accepted

theorem coerce_canonical (h : t.coerce v = .ok v) : t.coerce v.canonical = .ok v.canonical := by
  have accepted : t.accepts v.canonical := by
    rw [Value.accepts_canonical]
    exact accepts_of_coerce h
  by_cases long : v.kind = .long
  · obtain ⟨n, rfl⟩ := Value.exists_eq_long long
    exact h
  · apply coerce_of_not_long _ accepted
    cases v <;> exact long

theorem coerce_null (t : Ty) : t.coerce .null = .ok .null :=
  coerce_of_not_long (by simp [Value.kind]) rfl

section Accepts

variable {t k u : Ty} {v : Value}

theorem kind_ne_type_of_accepts (h : t.accepts v) : v.kind ≠ .type := by
  cases v with
  | type u =>
    cases t with
    | scalar s => cases s <;> contradiction
    | _ => contradiction
  | fixed w n => cases w <;> simp [Value.kind, Kind.ofWidth]
  | _ => simp [Value.kind]

theorem accepts_list (present : v.isNull = false) (h : (Ty.list t).accepts v) :
    ∃ xs, v = .list t xs := by
  cases v <;> simp_all [accepts, Value.isNull]

theorem accepts_set (present : v.isNull = false) (h : (Ty.set t).accepts v) :
    ∃ xs, v = .set t xs := by
  cases v <;> simp_all [accepts, Value.isNull]

theorem accepts_map (present : v.isNull = false) (h : (Ty.map k u).accepts v) :
    ∃ es, v = .map k u es := by
  cases v <;> simp_all [accepts, Value.isNull]

theorem accepts_tuple {ts : List Ty} (present : v.isNull = false) (h : (Ty.tuple ts).accepts v) :
    ∃ xs, v = .tuple ts xs := by
  cases v <;> simp_all [accepts, Value.isNull]

theorem accepts_user {label : Option Label} {fields : List (String × Ty)}
    (present : v.isNull = false) (h : (Ty.user label fields).accepts v) :
    ∃ xs, v = .user ⟨label, fields⟩ xs := by
  cases v <;> simp_all [accepts, Value.isNull]

end Accepts

end Ty

end Cql
