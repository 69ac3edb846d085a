import Cql.Assoc
import Cql.Create
import Cql.Proofs.Outcome
import Cql.Proofs.Typing

namespace Cql

namespace Container

variable {t : Ty} {v w : Value} {xs ys : List Value}

theorem element_eq_ok_iff : element t v = .ok w ↔ v.isNull = false ∧ t.coerce v = .ok w := by
  unfold element
  cases v.isNull <;> simp

theorem push_eq_ok_iff : push t xs v = .ok ys ↔ ∃ w, element t v = .ok w ∧ ys = xs ++ [w] := by
  unfold push
  cases element t v <;> simp [bind, Except.bind, pure, Except.pure, eq_comm]

theorem insert_eq_ok_iff {added : Bool} :
    insert t xs v = .ok (added, ys) ↔
      ∃ w, element t v = .ok w ∧ Sorted.insert Value.cmp w xs = (added, ys) := by
  unfold insert
  cases element t v <;> simp [bind, Except.bind, pure, Except.pure]

theorem put_eq_ok_iff {key value : Ty} {es fs : List (Value × Value)} {k : Value}
    {old : Option Value} :
    put key value es k v = .ok (old, fs) ↔
      ∃ l w, element key k = .ok l ∧ element value v = .ok w ∧
        Sorted.put Value.cmp l w es = (old, fs) := by
  unfold put element
  cases k.isNull <;> cases v.isNull <;> cases key.coerce k <;> cases value.coerce v <;>
    simp [bind, Except.bind, pure, Except.pure, throw, throwThe, MonadExceptOf.throw]

theorem setSlot_eq_ok_iff {elements : List Ty} {index : Nat} :
    setSlot elements xs index v = .ok ys ↔
      ∃ t w, elements[index]? = some t ∧ t.coerce v = .ok w ∧ ys = xs.set index w := by
  unfold setSlot
  cases elements[index]? with
  | none => simp
  | some t => cases h : t.coerce v <;> simp [Except.map, h, eq_comm]

theorem lookup_eq_bind (name : String) (fields : List (String × Ty)) :
    fields.lookup name =
      (fields.findIdx? (·.1 == name)).bind fun index => (fields.map (·.2))[index]? := by
  induction fields with
  | nil => rfl
  | cons f fields ih =>
    obtain ⟨n, u⟩ := f
    by_cases same : name = n
    · subst same
      simp [List.findIdx?_cons]
    · have other : (n == name) = false := beq_false_of_ne fun h => same h.symm
      rw [Assoc.lookup_cons, if_neg same, ih, List.findIdx?_cons]
      simp only [other, Bool.false_eq_true, if_false]
      cases fields.findIdx? (·.1 == name) <;> rfl

theorem setField_eq_ok_iff {u : UserType} {name : String} :
    setField u xs name v = .ok ys ↔
      ∃ index t w, u.fieldIndex? name = some index ∧ (u.fields.map (·.2))[index]? = some t ∧
        t.coerce v = .ok w ∧ ys = xs.set index w := by
  have field : u.field? name = (u.fieldIndex? name).bind fun i => (u.fields.map (·.2))[i]? :=
    lookup_eq_bind name u.fields
  unfold setField
  rw [field]
  generalize u.fields.map (·.2) = types
  cases u.fieldIndex? name with
  | none => simp
  | some index =>
    rw [Option.bind_some]
    cases found : types[index]? with
    | none => simp [found]
    | some t => cases h : t.coerce v <;> simp [Except.map, found, h, @eq_comm _ _ ys]

end Container

end Cql
