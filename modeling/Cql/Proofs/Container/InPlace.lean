import Cql.Container.InPlace
import Cql.Proofs.Container
import Cql.Proofs.Sorted.Search

/-!
Containers changed in place. A refused operation has changed nothing by the time it is refused, and
an operation that is done leaves what the same operation gives at once, without being in place.
-/

namespace Cql.Container

variable {σ α : Type} {t key value : Ty} {v k w : Value} {xs ys : List Value}
  {es : List (Value × Value)}

/-- Whenever the change is refused, the container holds what it held before. -/
def Change.Atomic (change : Change σ α) : Prop :=
  ∀ {held after : σ} {fault : Fault}, change.on held = (.error fault, after) → after = held

def settle (held : σ) : Except Fault (α × σ) → Except Fault α × σ
  | .ok (answer, after) => (.ok answer, after)
  | .error fault => (.error fault, held)

theorem settle_eq_ok_iff {outcome : Except Fault (α × σ)} {held after : σ} {answer : α} :
    settle held outcome = (.ok answer, after) ↔ outcome = .ok (answer, after) := by
  rcases outcome with _ | ⟨_, _⟩ <;> simp [settle]

theorem settle_eq_error_iff {outcome : Except Fault (α × σ)} {held after : σ} {fault : Fault} :
    settle held outcome = (.error fault, after) ↔ outcome = .error fault ∧ after = held := by
  rcases outcome with _ | ⟨_, _⟩ <;> simp [settle, eq_comm]

theorem settle_kept {P : σ → Prop} {held : σ} {outcome : Except Fault (α × σ)} (before : P held)
    (done : ∀ answer after, outcome = .ok (answer, after) → P after) :
    P (settle held outcome).2 := by
  rcases outcome with fault | ⟨answer, after⟩
  · exact before
  · exact done answer after rfl

theorem settle_map_kept {P : σ → Prop} {held : σ} {outcome : Except Fault σ}
    (before : P held) (done : ∀ after, outcome = .ok after → P after) :
    P (settle held (outcome.map ((), ·))).2 := by
  cases outcome with
  | error fault => exact before
  | ok after => exact done after rfl

theorem entry_eq_ok_iff {e : Value × Value} :
    entry key value k v = .ok e ↔ element key k = .ok e.1 ∧ element value v = .ok e.2 := by
  unfold entry element
  cases k.isNull <;> cases v.isNull <;> cases key.coerce k <;> cases value.coerce v <;>
    simp [bind, Except.bind, pure, Except.pure, throw, throwThe, MonadExceptOf.throw, Prod.ext_iff]

theorem put_eq_map_entry :
    put key value es k v =
      (entry key value k v).map fun e => Sorted.put Value.cmp e.1 e.2 es := by
  unfold put entry
  cases k.isNull || v.isNull with
  | true => rfl
  | false => cases key.coerce k <;> cases value.coerce v <;> rfl

theorem insert_eq_map_element :
    insert t xs v = (element t v).map fun w => Sorted.insert Value.cmp w xs := by
  unfold insert
  cases element t v <;> rfl

section Steps

theorem pushInPlace_on :
    (pushInPlace t v).on xs = settle xs ((push t xs v).map ((), ·)) := by
  have anew : push t xs v = (element t v).map (xs ++ [·]) := by
    unfold push
    cases element t v <;> rfl
  rw [anew]
  cases made : element t v <;> simp [pushInPlace, made, settle, Except.map]

theorem setSlotInPlace_on {elements : List Ty} {index : Nat} :
    (setSlotInPlace elements index v).on xs =
      settle xs ((setSlot elements xs index v).map ((), ·)) := by
  unfold setSlotInPlace setSlot
  cases elements[index]? with
  | none => rfl
  | some t => cases coerced : t.coerce v <;> simp [coerced, settle, Except.map]

theorem setFieldInPlace_on {u : UserType} {name : String} :
    (setFieldInPlace u name v).on xs = settle xs ((setField u xs name v).map ((), ·)) := by
  unfold setFieldInPlace setField
  cases u.fieldIndex? name with
  | none => rfl
  | some index =>
    cases u.field? name with
    | none => rfl
    | some t => cases coerced : t.coerce v <;> simp [coerced, settle, Except.map]

theorem insertInPlace_on :
    (insertInPlace t v).on xs =
      match element t v with
      | .error fault => (.error fault, xs)
      | .ok w =>
        match Sorted.search (·.cmp w) xs with
        | .found _ => (.ok false, xs)
        | .vacant index => (.ok true, xs.insertIdx index w) := by
  cases made : element t v with
  | error fault => simp [insertInPlace, made]
  | ok w =>
    cases place : Sorted.search (·.cmp w) xs <;> simp [insertInPlace, made, place, Except.map]

theorem putInPlace_on :
    (putInPlace key value k v).on es =
      match entry key value k v with
      | .error fault => (.error fault, es)
      | .ok e =>
        match Sorted.search (·.1.cmp e.1) es with
        | .found index => (.ok (es[index]?.map (·.2)), es.modify index fun f => (f.1, e.2))
        | .vacant index => (.ok none, es.insertIdx index e) := by
  cases made : entry key value k v with
  | error fault => simp [putInPlace, made]
  | ok e =>
    cases place : Sorted.search (·.1.cmp e.1) es <;> simp [putInPlace, made, place, Except.map]

/-- A set in increasing order is changed in place as if it were given anew. -/
theorem insertInPlace_eq (increasing : Sorted.Increasing Value.cmp xs) :
    (insertInPlace t v).on xs = settle xs (insert t xs v) := by
  rw [insertInPlace_on, insert_eq_map_element]
  cases element t v with
  | error fault => rfl
  | ok w =>
    have located := Sorted.located_of_increasing increasing w
    dsimp only
    generalize Sorted.search (·.cmp w) xs = place at located ⊢
    cases located with
    | found equal less _ => simp [settle, Except.map, Sorted.insert_found less equal]
    | vacant less greater =>
      simp [settle, Except.map, Sorted.insert_vacant less greater, Sorted.insertIdx_length]

theorem putInPlace_eq (increasing : Sorted.Increasing Value.cmp (es.map (·.1))) :
    (putInPlace key value k v).on es = settle es (put key value es k v) := by
  rw [putInPlace_on, put_eq_map_entry]
  cases entry key value k v with
  | error fault => rfl
  | ok e =>
    have located := Sorted.located_key increasing e.1
    dsimp only
    generalize Sorted.search (·.1.cmp e.1) es = place at located ⊢
    cases located with
    | @found _ _ f equal less _ =>
      simp [settle, Except.map, Sorted.put_found less equal, Sorted.modify_length]
    | vacant less greater =>
      simp [settle, Except.map, Sorted.put_vacant less greater, Sorted.insertIdx_length]

end Steps

section Refused

theorem atomic_pushInPlace (t : Ty) (v : Value) : (pushInPlace t v).Atomic :=
  fun h => (settle_eq_error_iff.mp (pushInPlace_on.symm.trans h)).2

theorem atomic_setSlotInPlace (elements : List Ty) (index : Nat) (v : Value) :
    (setSlotInPlace elements index v).Atomic :=
  fun h => (settle_eq_error_iff.mp (setSlotInPlace_on.symm.trans h)).2

theorem atomic_setFieldInPlace (u : UserType) (name : String) (v : Value) :
    (setFieldInPlace u name v).Atomic :=
  fun h => (settle_eq_error_iff.mp (setFieldInPlace_on.symm.trans h)).2

theorem atomic_insertInPlace (t : Ty) (v : Value) : (insertInPlace t v).Atomic := by
  intro held after fault h
  rw [insertInPlace_on] at h
  split at h
  · exact (Prod.mk.inj h).2.symm
  · split at h <;> simp at h

theorem atomic_putInPlace (key value : Ty) (k v : Value) : (putInPlace key value k v).Atomic := by
  intro held after fault h
  rw [putInPlace_on] at h
  split at h
  · exact (Prod.mk.inj h).2.symm
  · split at h <;> simp at h

end Refused

section Lookups

theorem holds_iff (increasing : Sorted.Increasing Value.cmp xs) (v : Value) :
    holds xs v ↔ ∃ x ∈ xs, x.cmp v = .eq := by
  have located := Sorted.located_of_increasing increasing v
  unfold holds
  generalize Sorted.search (·.cmp v) xs = place at located ⊢
  cases located with
  | @found before after y equal _ _ => simpa using ⟨y, .inr (.inl rfl), equal⟩
  | @vacant before after less greater =>
    have other : ∀ x ∈ before ++ after, x.cmp v ≠ .eq := Sorted.other_of_vacant less greater
    simpa using other

theorem valueOf?_eq (increasing : Sorted.Increasing Value.cmp (es.map (·.1))) (k : Value) :
    valueOf? es k = get? es k := by
  have located := Sorted.located_key increasing k
  unfold valueOf? get?
  generalize Sorted.search (·.1.cmp k) es = place at located ⊢
  cases located with
  | @found before after e equal _ _ =>
    have member : e ∈ before ++ e :: after := by simp
    rw [Sorted.get?_of_mem increasing member equal]
    simp
  | @vacant before after less greater =>
    have other : ∀ e ∈ before ++ after, e.1.cmp k ≠ .eq := Sorted.other_of_vacant less greater
    exact (Sorted.get?_eq_none other).symm

end Lookups

end Cql.Container
