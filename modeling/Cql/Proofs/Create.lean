import Cql.Create
import Cql.Proofs.Outcome
import Cql.Proofs.Typing

namespace Cql

def Scalar.width? : Scalar → Option Width
  | .tinyint => some .tinyint
  | .smallint => some .smallint
  | .int => some .int
  | .bigint | .counter => some .bigint
  | _ => none

def Ty.width? : Ty → Option Width
  | .scalar s => s.width?
  | _ => none

/-- The second value is the first as a column of the type holds it: an integer of the host language
as the same number in the width of the column, if it is one of integers, and all else as it is. -/
inductive Ty.StoredAs (t : Ty) : Value → Value → Prop
  | number {w : Width} {n : Long} {m : Fixed w} (column : t.width? = some w)
      (same : m.val = n.val) : StoredAs t (.long n) (.fixed w m)
  | itself {v : Value} (other : v.kind = .long → t.width? = none) : StoredAs t v v

namespace Ty

variable {t : Ty} {s : Scalar} {v w : Value} {n : Long}

theorem validate_eq_ok_iff : t.validate v = .ok () ↔ t.accepts v := by
  unfold validate
  split <;> simp_all

theorem exists_fixed_of_accepts {width : Width} (column : s.width? = some width)
    (accepted : (scalar s).accepts v) (present : v.isNull = false) (other : v.kind ≠ .long) :
    ∃ m : Fixed width, v = .fixed width m := by
  cases s with
  | tinyint | smallint | int | bigint | counter =>
    obtain rfl := Option.some.inj column
    cases v with
    | null => contradiction
    | long n => exact absurd rfl other
    | fixed width m =>
      cases width with
      | tinyint | smallint | int | bigint => first | exact ⟨m, rfl⟩ | contradiction
    | _ => contradiction
  | _ => contradiction

theorem coerce_long_of_accepts (accepted : (scalar s).accepts (.long n)) :
    (scalar s).coerce (.long n) =
      match s.width? with
      | some width => (Fixed.ofInt width n.val).map (.fixed width)
      | none => .ok (.long n) := by
  unfold coerce
  rw [validate_of_accepts accepted]
  have whole : Fixed.ofInt .bigint n.val = .ok n := Fixed.checked_eq_ok_iff.mpr rfl
  cases s with
  | tinyint | smallint => contradiction
  | bigint | counter =>
    simp only [Scalar.width?, whole]
    rfl
  | _ => rfl

theorem exists_scalar_of_accepts_long (accepted : t.accepts (.long n)) : ∃ s, t = .scalar s := by
  cases t with
  | scalar s => exact ⟨s, rfl⟩
  | _ => contradiction

theorem storedAs_of_coerce (coerced : t.coerce v = .ok w) : t.StoredAs v w := by
  have accepted := accepts_of_coerce coerced
  by_cases long : v.kind = .long
  · obtain ⟨n, rfl⟩ := Value.exists_eq_long long
    obtain ⟨s, rfl⟩ := exists_scalar_of_accepts_long accepted
    rw [coerce_long_of_accepts accepted] at coerced
    cases column : s.width? with
    | some width =>
      simp only [column] at coerced
      obtain ⟨m, made, rfl⟩ := map_eq_ok_iff.mp coerced
      exact .number column (Fixed.checked_eq_ok_iff.mp made)
    | none =>
      simp only [column] at coerced
      obtain rfl := Except.ok.inj coerced
      exact .itself fun _ => column
  · rw [coerce_of_not_long long accepted] at coerced
    obtain rfl := Except.ok.inj coerced
    exact .itself fun same => absurd same long

/-- A value that is taken has no other form than this one. -/
theorem coerce_of_storedAs (accepted : t.accepts v) (stored : t.StoredAs v w) :
    t.coerce v = .ok w := by
  cases stored with
  | @number width n m column same =>
    obtain ⟨s, rfl⟩ := exists_scalar_of_accepts_long accepted
    have made : Fixed.ofInt width n.val = .ok m := Fixed.checked_eq_ok_iff.mpr same
    rw [coerce_long_of_accepts accepted, show s.width? = some width from column]
    simp only [made]
    rfl
  | itself other =>
    by_cases long : v.kind = .long
    · obtain ⟨n, rfl⟩ := Value.exists_eq_long long
      obtain ⟨s, rfl⟩ := exists_scalar_of_accepts_long accepted
      rw [coerce_long_of_accepts accepted, show s.width? = none from other rfl]
    · exact coerce_of_not_long long accepted

theorem exists_storedAs (accepted : t.accepts v) : ∃ w, t.StoredAs v w := by
  by_cases long : v.kind = .long
  · obtain ⟨n, rfl⟩ := Value.exists_eq_long long
    obtain ⟨s, rfl⟩ := exists_scalar_of_accepts_long accepted
    cases column : s.width? with
    | none => exact ⟨.long n, .itself fun _ => column⟩
    | some width =>
      obtain ⟨m, same⟩ : ∃ m : Fixed width, m.val = n.val := by
        cases s with
        | tinyint | smallint => contradiction
        | int =>
          obtain rfl := Option.some.inj column
          obtain ⟨m, within⟩ := Option.isSome_iff_exists.mp accepted
          exact ⟨m, Fixed.ofInt?_eq_some_iff.mp within⟩
        | bigint | counter =>
          obtain rfl := Option.some.inj column
          exact ⟨n, rfl⟩
        | _ => contradiction
      exact ⟨.fixed width m, .number column same⟩
  · exact ⟨v, .itself fun same => absurd same long⟩

theorem create_of_present (present : v.isNull = false) :
    s.create [v] =
      match s.width? with
      | some width => (v.toFixed width).map (.fixed width)
      | none => ((scalar s).validate v).map fun _ => v := by
  cases v with
  | null => contradiction
  | _ => cases s <;> rfl

theorem create_of_accepts (accepted : (scalar s).accepts v) :
    (scalar s).create [v] = (scalar s).coerce v := by
  cases present : v.isNull with
  | true =>
    obtain rfl := Value.eq_null_of_isNull present
    exact (coerce_null (.scalar s)).symm
  | false =>
    rw [create, create_of_present present]
    by_cases long : v.kind = .long
    · obtain ⟨n, rfl⟩ := Value.exists_eq_long long
      rw [coerce_long_of_accepts accepted, validate_of_accepts accepted]
      rfl
    · rw [coerce_of_not_long long accepted, validate_of_accepts accepted]
      cases column : s.width? with
      | none => rfl
      | some width =>
        obtain ⟨m, rfl⟩ := exists_fixed_of_accepts column accepted present long
        have itself : (Value.fixed width m).toFixed width = .ok m := dif_pos rfl
        simp only [itself]
        rfl

/-- A type stores exactly what it takes. What it stores it takes as well, in the same form, and it
is the same value: for an integer of the host language in a column of integers the same number in
the width of the column, and else the value itself. From a value that it takes, a scalar creates
what it stores. -/
theorem coerce_agrees (t : Ty) (v : Value) :
    (t.validate v = .ok () ↔ t.accepts v) ∧ ((∃ w, t.coerce v = .ok w) ↔ t.accepts v) ∧
      (∀ w, t.coerce v = .ok w → t.accepts w ∧ t.coerce w = .ok w ∧ t.StoredAs v w) ∧
      ∀ s, t = .scalar s → t.accepts v → t.create [v] = t.coerce v := by
  refine ⟨validate_eq_ok_iff, ⟨?_, ?_⟩, ?_, ?_⟩
  · rintro ⟨w, coerced⟩
    exact accepts_of_coerce coerced
  · intro accepted
    obtain ⟨w, stored⟩ := exists_storedAs accepted
    exact ⟨w, coerce_of_storedAs accepted stored⟩
  · intro w coerced
    have again := coerce_idem coerced
    exact ⟨accepts_of_coerce again, again, storedAs_of_coerce coerced⟩
  · rintro s rfl accepted
    exact create_of_accepts accepted

theorem coerce_agrees_counter :
    let counter : Ty := .scalar .counter
    let five : Long := ⟨5, by decide, by decide⟩
    let beyond : Long := ⟨2147483648, by decide, by decide⟩
    counter.accepts (.long five) ∧ counter.coerce (.long five) = .ok (.fixed .bigint five) ∧
      counter.coerce (.fixed .bigint five) = .ok (.fixed .bigint five) ∧
      counter.StoredAs (.long five) (.fixed .bigint five) ∧
      counter.create [.long five] = .ok (.fixed .bigint five) ∧
      ¬ ∃ w, (Ty.scalar .int).coerce (.long beyond) = .ok w := by
  intro counter five beyond
  obtain ⟨-, -, kept, created⟩ := coerce_agrees counter (.long five)
  have coerced : counter.coerce (.long five) = .ok (.fixed .bigint five) := rfl
  obtain ⟨-, again, stored⟩ := kept _ coerced
  refine ⟨rfl, coerced, again, stored, (created .counter rfl rfl).trans coerced, ?_⟩
  rw [(coerce_agrees (.scalar .int) (.long beyond)).2.1]
  decide

end Ty

end Cql
