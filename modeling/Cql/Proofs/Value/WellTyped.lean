import Cql.Proofs.Container.InPlace
import Cql.Proofs.Value.Sound

/-!
Values that calls on containers lead to, refused calls included. They are the values that the
operations build when nothing is refused, and in each of them every part, at any depth, is taken by
the type under which it is stored, in the form in which that type stores it. So the comparison of
the types that two composite values carry tells whether the whole of a value is of a type.
-/

namespace Cql.Value

open Container

/-- The values that any calls lead to, with any arguments that such calls led to. A container is
what it holds after the call, whether the call was done or refused. -/
inductive Reached : Value → Prop
  | atom {v : Value} (h : v.isComposite = false) : Reached v
  | emptyList (t : Ty) : Reached (.list t [])
  | push {t : Ty} {xs : List Value} {v : Value} (list : Reached (.list t xs)) (item : Reached v) :
      Reached (.list t ((pushInPlace t v).on xs).2)
  | emptySet (t : Ty) : Reached (.set t [])
  | insert {t : Ty} {xs : List Value} {v : Value} (set : Reached (.set t xs)) (item : Reached v) :
      Reached (.set t ((insertInPlace t v).on xs).2)
  | emptyMap (key value : Ty) : Reached (.map key value [])
  | put {key value : Ty} {es : List (Value × Value)} {k v : Value}
      (map : Reached (.map key value es)) (first : Reached k) (second : Reached v) :
      Reached (.map key value ((putInPlace key value k v).on es).2)
  | emptyTuple (ts : List Ty) : Reached (.tuple ts (emptySlots ts.length))
  | setSlot {ts : List Ty} {xs : List Value} {index : Nat} {v : Value}
      (tuple : Reached (.tuple ts xs)) (item : Reached v) :
      Reached (.tuple ts ((setSlotInPlace ts index v).on xs).2)
  | emptyUser (u : UserType) : Reached (.user u (emptySlots u.fields.length))
  | setField {u : UserType} {xs : List Value} {name : String} {v : Value}
      (user : Reached (.user u xs)) (item : Reached v) :
      Reached (.user u ((setFieldInPlace u name v).on xs).2)
  | create {t : Ty} {args : List Value} {v : Value} (parts : ∀ x ∈ args, Reached x)
      (h : t.create args = .ok v) : Reached v

structure Kept (t : Ty) (x : Value) : Prop where
  accepted : t.accepts x
  unchanged : t.coerce x = .ok x

/-- What holds of every part of a value, at any depth: it is kept by the type under which it is
stored, and nothing but a slot is null. -/
inductive WellTyped : Value → Prop
  | atom {v : Value} (h : v.isComposite = false) : WellTyped v
  | list {t : Ty} {xs : List Value} (present : ∀ x ∈ xs, x.isNull = false)
      (kept : ∀ x ∈ xs, Kept t x) (parts : ∀ x ∈ xs, WellTyped x) : WellTyped (.list t xs)
  | set {t : Ty} {xs : List Value} (present : ∀ x ∈ xs, x.isNull = false)
      (kept : ∀ x ∈ xs, Kept t x) (parts : ∀ x ∈ xs, WellTyped x) : WellTyped (.set t xs)
  | map {key value : Ty} {es : List (Value × Value)}
      (present : ∀ e ∈ es, e.1.isNull = false ∧ e.2.isNull = false)
      (kept : ∀ e ∈ es, Kept key e.1 ∧ Kept value e.2)
      (keys : ∀ e ∈ es, WellTyped e.1) (values : ∀ e ∈ es, WellTyped e.2) :
      WellTyped (.map key value es)
  | tuple {ts : List Ty} {xs : List Value} (slots : List.Forall₂ Kept ts xs)
      (parts : ∀ x ∈ xs, WellTyped x) : WellTyped (.tuple ts xs)
  | user {u : UserType} {xs : List Value} (slots : List.Forall₂ Kept (u.fields.map (·.2)) xs)
      (parts : ∀ x ∈ xs, WellTyped x) : WellTyped (.user u xs)

/-- The whole of the value is of the type: so is each part of it, at any depth, for the type that
stands at its place in the type of the whole. -/
inductive HasType : Ty → Value → Prop
  | null (t : Ty) : HasType t .null
  | scalar {s : Scalar} {v : Value} (accepted : s.accepts v) : HasType (.scalar s) v
  | list {t : Ty} {xs : List Value} (present : ∀ x ∈ xs, x.isNull = false)
      (items : ∀ x ∈ xs, HasType t x) : HasType (.list t) (.list t xs)
  | set {t : Ty} {xs : List Value} (present : ∀ x ∈ xs, x.isNull = false)
      (items : ∀ x ∈ xs, HasType t x) : HasType (.set t) (.set t xs)
  | map {key value : Ty} {es : List (Value × Value)}
      (present : ∀ e ∈ es, e.1.isNull = false ∧ e.2.isNull = false)
      (keys : ∀ e ∈ es, HasType key e.1) (values : ∀ e ∈ es, HasType value e.2) :
      HasType (.map key value) (.map key value es)
  | tuple {ts : List Ty} {xs : List Value} (size : xs.length = ts.length)
      (slots : ∀ (index : Nat) t x, ts[index]? = some t → xs[index]? = some x → HasType t x) :
      HasType (.tuple ts) (.tuple ts xs)
  | user {label : Option Label} {fields : List (String × Ty)} {xs : List Value}
      (size : xs.length = fields.length)
      (slots : ∀ (index : Nat) f x, fields[index]? = some f → xs[index]? = some x → HasType f.2 x) :
      HasType (.user label fields) (.user ⟨label, fields⟩ xs)

section Calls

theorem increasing_of_built_set {t : Ty} {xs : List Value} (set : Built (.set t xs)) :
    Sorted.Increasing cmp xs := by
  cases set.sound with
  | atom h => contradiction
  | set _ _ increasing => exact increasing

theorem increasing_of_built_map {key value : Ty} {es : List (Value × Value)}
    (map : Built (.map key value es)) : Sorted.Increasing cmp (es.map (·.1)) := by
  cases map.sound with
  | atom h => contradiction
  | map _ _ _ increasing => exact increasing

theorem Reached.built {v : Value} (reached : Reached v) : Built v := by
  induction reached with
  | atom h => exact .atom h
  | @push t xs v _ _ list item =>
    rw [pushInPlace_on]
    exact settle_map_kept (P := fun ys => Built (.list t ys)) list fun _ => .push list item
  | @insert t xs v _ _ set item =>
    rw [insertInPlace_eq (increasing_of_built_set set)]
    exact settle_kept (P := fun ys => Built (.set t ys)) set fun _ _ => .insert set item
  | @put key value es k v _ _ _ map first second =>
    rw [putInPlace_eq (increasing_of_built_map map)]
    exact settle_kept (P := fun fs => Built (.map key value fs)) map
      fun _ _ => .put map first second
  | @setSlot ts xs index v _ _ tuple item =>
    rw [setSlotInPlace_on]
    exact settle_map_kept (P := fun ys => Built (.tuple ts ys)) tuple fun _ => .setSlot tuple item
  | @setField u xs name v _ _ user item =>
    rw [setFieldInPlace_on]
    exact settle_map_kept (P := fun ys => Built (.user u ys)) user fun _ => .setField user item
  | emptyList t => exact .emptyList t
  | emptySet t => exact .emptySet t
  | emptyMap key value => exact .emptyMap key value
  | emptyTuple ts => exact .emptyTuple ts
  | emptyUser u => exact .emptyUser u
  | create _ h parts => exact .create parts h

theorem Built.reached {v : Value} (built : Built v) : Reached v := by
  induction built with
  | atom h => exact .atom h
  | @push t xs ys v _ _ done list item =>
    have call := Reached.push list item
    rw [pushInPlace_on, done] at call
    exact call
  | @insert t xs ys v added set _ done reached item =>
    have call := Reached.insert reached item
    rw [insertInPlace_eq (increasing_of_built_set set), done] at call
    exact call
  | @put key value es fs k v old map _ _ done reached first second =>
    have call := Reached.put reached first second
    rw [putInPlace_eq (increasing_of_built_map map), done] at call
    exact call
  | @setSlot ts xs ys index v _ _ done tuple item =>
    have call : Reached (.tuple ts ((setSlotInPlace ts index v).on xs).2) := .setSlot tuple item
    rw [setSlotInPlace_on, done] at call
    exact call
  | @setField u xs ys name v _ _ done user item =>
    have call : Reached (.user u ((setFieldInPlace u name v).on xs).2) := .setField user item
    rw [setFieldInPlace_on, done] at call
    exact call
  | emptyList t => exact .emptyList t
  | emptySet t => exact .emptySet t
  | emptyMap key value => exact .emptyMap key value
  | emptyTuple ts => exact .emptyTuple ts
  | emptyUser u => exact .emptyUser u
  | coerce _ h value =>
    rcases Ty.coerce_eq_self_or_fixed h with rfl | ⟨width, n, rfl⟩
    · exact value
    · exact .atom rfl
  | create _ h parts => exact .create parts h

/-- That calls may be refused, and that containers are changed in place and searched by halving,
adds no values. -/
theorem reached_iff_built {v : Value} : Reached v ↔ Built v := ⟨Reached.built, Built.reached⟩

end Calls

section Depth

variable {t : Ty} {v x : Value} {xs : List Value}

theorem kept_of_fits (fits : Fits t x) : Kept t x := ⟨Ty.accepts_of_coerce fits, fits⟩

theorem kept_of_stored (stored : Stored t x) : Kept t x := kept_of_fits (fits_of_stored stored)

theorem present_of_stored (stored : Stored t x) : x.isNull = false :=
  (element_eq_ok_iff.mp stored).1

theorem Sound.wellTyped (sound : Sound v) : WellTyped v := by
  induction sound with
  | atom h => exact .atom h
  | list stored _ parts =>
    exact .list (fun x hx => present_of_stored (stored x hx))
      (fun x hx => kept_of_stored (stored x hx)) parts
  | set stored _ _ parts =>
    exact .set (fun x hx => present_of_stored (stored x hx))
      (fun x hx => kept_of_stored (stored x hx)) parts
  | map stored _ _ _ keys values =>
    exact .map
      (fun e he => ⟨present_of_stored (stored e he).1, present_of_stored (stored e he).2⟩)
      (fun e he => ⟨kept_of_stored (stored e he).1, kept_of_stored (stored e he).2⟩) keys values
  | tuple fits _ parts => exact .tuple (fits.imp fun _ _ => kept_of_fits) parts
  | user fits _ parts => exact .user (fits.imp fun _ _ => kept_of_fits) parts

theorem kept_of_slots {ts : List Ty} (slots : List.Forall₂ Kept ts xs) {index : Nat}
    (declared : ts[index]? = some t) (held : xs[index]? = some x) : Kept t x := by
  induction slots generalizing index with
  | nil => simp at declared
  | cons first _ ih =>
    cases index with
    | zero =>
      obtain rfl := Option.some.inj declared
      obtain rfl := Option.some.inj held
      exact first
    | succ index => exact ih (by simpa using declared) (by simpa using held)

def carried? : Value → Option Ty
  | .list t _ => some (.list t)
  | .set t _ => some (.set t)
  | .map key value _ => some (.map key value)
  | .tuple ts _ => some (.tuple ts)
  | .user u _ => some u.ty
  | _ => none

theorem accepts_iff_of_carried {u : Ty} (carried : v.carried? = some u) : t.accepts v ↔ t = u := by
  constructor
  · intro accepted
    cases t with
    | scalar s => cases v <;> cases carried <;> cases s <;> contradiction
    | _ => cases v <;> cases carried <;> simp_all [Ty.accepts, UserType.ty]
  · rintro rfl
    cases v <;> cases carried <;> simp [Ty.accepts, UserType.ty]

/-- What a type takes by the type that it carries is of the type as a whole. -/
theorem WellTyped.hasType (wellTyped : WellTyped v) (accepted : t.accepts v) : HasType t v := by
  induction wellTyped generalizing t with
  | @atom v atomic =>
    cases t with
    | scalar s => cases v <;> first | exact .null _ | exact .scalar accepted
    | _ => cases v <;> first | exact .null _ | contradiction
  | list present kept _ parts =>
    obtain rfl := (accepts_iff_of_carried rfl).mp accepted
    exact .list present fun x hx => parts x hx (kept x hx).accepted
  | set present kept _ parts =>
    obtain rfl := (accepts_iff_of_carried rfl).mp accepted
    exact .set present fun x hx => parts x hx (kept x hx).accepted
  | map present kept _ _ keys values =>
    obtain rfl := (accepts_iff_of_carried rfl).mp accepted
    exact .map present (fun e he => keys e he (kept e he).1.accepted)
      fun e he => values e he (kept e he).2.accepted
  | tuple slots _ parts =>
    obtain rfl := (accepts_iff_of_carried rfl).mp accepted
    refine .tuple slots.length_eq.symm fun index u x declared held => ?_
    exact parts x (List.mem_of_getElem? held) (kept_of_slots slots declared held).accepted
  | @user u xs slots _ parts =>
    obtain rfl := (accepts_iff_of_carried rfl).mp accepted
    refine .user (by simpa using slots.length_eq.symm) fun index f x declared held => ?_
    have declared : (u.fields.map (·.2))[index]? = some f.2 := by simp [declared]
    exact parts x (List.mem_of_getElem? held) (kept_of_slots slots declared held).accepted

theorem accepts_of_hasType (typed : HasType t v) : t.accepts v := by
  cases typed with
  | null => rfl
  | @scalar s v accepted => cases v <;> first | rfl | exact accepted
  | _ => simp [Ty.accepts]

theorem accepts_of_scalar_create {s : Scalar} (h : s.create xs = .ok v) :
    (Ty.scalar s).accepts v := by
  unfold Scalar.create at h
  split at h
  · obtain rfl := Except.ok.inj h
    rfl
  · split at h
    -- the integers of each width, and then the scalars that take values as they are
    iterate 5
      obtain ⟨n, -, rfl⟩ := map_eq_ok_iff.mp h
      rfl
    · obtain ⟨_, valid, rfl⟩ := map_eq_ok_iff.mp h
      by_contra refused
      simp [Ty.validate, refused] at valid
  · contradiction

theorem accepts_of_create (h : t.create xs = .ok v) : t.accepts v := by
  cases t with
  | scalar s => exact accepts_of_scalar_create h
  | list e =>
    obtain ⟨ys, -, rfl⟩ := map_eq_ok_iff.mp h
    simp [Ty.accepts]
  | set e =>
    obtain ⟨ys, -, rfl⟩ := map_eq_ok_iff.mp h
    simp [Ty.accepts]
  | map key value =>
    rw [Ty.create] at h
    split at h
    · contradiction
    · obtain ⟨es, -, rfl⟩ := map_eq_ok_iff.mp h
      simp [Ty.accepts]
  | tuple ts =>
    simp only [Ty.create] at h
    split at h
    · obtain rfl := Except.ok.inj h
      simp [Ty.accepts]
    · split at h
      · contradiction
      · obtain ⟨ys, -, rfl⟩ := map_eq_ok_iff.mp h
        simp [Ty.accepts]
  | user label fields =>
    simp only [Ty.create] at h
    split at h
    · contradiction
    · obtain ⟨ys, -, rfl⟩ := map_eq_ok_iff.mp h
      simp [Ty.accepts]

end Depth

theorem Reached.wellTyped {v : Value} (reached : Reached v) : WellTyped v :=
  reached.built.sound.wellTyped

/-- Deep well-typedness: every value that calls lead to has it, since no call stores what its type
does not keep and a refused call changes nothing. Then comparing the carried types, which is all
that `accepts` does, is enough. -/
theorem reached_wellTyped :
    (∀ v, Reached v → WellTyped v) ∧
      ((∀ t v, (pushInPlace t v).Atomic) ∧ (∀ t v, (insertInPlace t v).Atomic) ∧
        (∀ key value k v, (putInPlace key value k v).Atomic) ∧
        (∀ ts index v, (setSlotInPlace ts index v).Atomic) ∧
        ∀ u name v, (setFieldInPlace u name v).Atomic) ∧
      (∀ (t : Ty) args v, t.create args = .ok v → t.accepts v) ∧
      ∀ v, Reached v → ∀ t : Ty, t.accepts v ↔ HasType t v := by
  refine ⟨fun _ => Reached.wellTyped, ⟨?_, ?_, ?_, ?_, ?_⟩, fun _ _ _ => accepts_of_create, ?_⟩
  · exact atomic_pushInPlace
  · exact atomic_insertInPlace
  · exact atomic_putInPlace
  · exact atomic_setSlotInPlace
  · exact atomic_setFieldInPlace
  · exact fun v reached t => ⟨reached.wellTyped.hasType, accepts_of_hasType⟩

theorem reached_wellTyped_refused :
    let int : Ty := .scalar .int
    let seven : Fixed .int := ⟨7, by decide, by decide⟩
    let inner := ((insertInPlace int (.long ⟨7, by decide, by decide⟩)).on []).2
    let refused := (insertInPlace int (.text "seven")).on inner
    let v := Value.list (.set int) ((pushInPlace (.set int) (.set int refused.2)).on []).2
    refused = (.error (.mismatch int .text), inner) ∧
      v = .list (.set int) [.set int [.fixed .int seven]] ∧
      WellTyped v ∧ HasType (.list (.set int)) v := by
  intro int seven inner refused v
  have reached : Reached v :=
    .push (.emptyList _) (.insert (.insert (.emptySet _) (.atom rfl)) (.atom rfl))
  obtain ⟨wellTyped, -, -, typed⟩ := reached_wellTyped
  exact ⟨rfl, rfl, wellTyped v reached, (typed v reached _).mp rfl⟩

end Cql.Value
