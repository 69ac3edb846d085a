import Cql.Create
import Cql.Proofs.Container.Map
import Cql.Proofs.Container.Set
import Cql.Proofs.Outcome

/-!
Sets and maps that are built from arguments depend on nothing but what they hold: two sets are equal
exactly if their arguments are the same set, and two maps if their arguments give each key the same
last value. In which order the arguments come, and how often, makes no difference.
-/

namespace Cql

namespace Value

variable {xs ys : List Value} {es fs : List (Value × Value)} {a b : Value}

theorem cmpAll_eq_iff_forall₂ :
    cmpAll xs ys = .eq ↔ List.Forall₂ (fun x y => x.cmp y = .eq) xs ys := by
  induction xs generalizing ys with
  | nil => cases ys <;> simp [cmpAll]
  | cons x xs ih => cases ys <;> simp [cmpAll, ih]

theorem cmpEntries_eq_iff_forall₂ :
    cmpEntries es fs = .eq ↔
      List.Forall₂ (fun e f => e.1.cmp f.1 = .eq ∧ e.2.cmp f.2 = .eq) es fs := by
  induction es generalizing fs with
  | nil => cases fs <;> simp [cmpEntries]
  | cons e es ih => cases fs <;> simp [cmpEntries, ih]

theorem shown_alike (equal : a.cmp b = .eq) : a.hash = b.hash ∧ a.toText = b.toText := by
  have same := (cmp_eq_iff a b).mp equal
  constructor
  · rw [← hash_canonical a, same, hash_canonical]
  · rw [← toText_canonical a, same, toText_canonical]

end Value

namespace Container

section Set

variable {t : Ty} {xs ys : List Value} {v : Value}

/-- The same set, where equal values count as one. -/
def SameSet (xs ys : List Value) : Prop :=
  ∀ v : Value, (∃ x ∈ xs, x.cmp v = .eq) ↔ ∃ y ∈ ys, y.cmp v = .eq

theorem sameSet_iff_partners :
    SameSet xs ys ↔ (∀ x ∈ xs, ∃ y ∈ ys, x.cmp y = .eq) ∧ ∀ y ∈ ys, ∃ x ∈ xs, x.cmp y = .eq := by
  constructor
  · intro same
    constructor
    · intro x hx
      obtain ⟨y, hy, equal⟩ := (same x).mp ⟨x, hx, Std.ReflCmp.compare_self⟩
      exact ⟨y, hy, Std.OrientedCmp.eq_symm equal⟩
    · exact fun y hy => (same y).mpr ⟨y, hy, Std.ReflCmp.compare_self⟩
  · rintro ⟨forth, back⟩ v
    constructor
    · rintro ⟨x, hx, xv⟩
      obtain ⟨y, hy, xy⟩ := forth x hx
      exact ⟨y, hy, (Std.TransCmp.congr_left xy).symm.trans xv⟩
    · rintro ⟨y, hy, yv⟩
      obtain ⟨x, hx, xy⟩ := back y hy
      exact ⟨x, hx, (Std.TransCmp.congr_left xy).trans yv⟩

theorem create_set_eq_ok_iff :
    (Ty.set t).create xs = .ok v ↔
      (∀ x ∈ xs, ∃ w, element t x = .ok w) ∧ v = .set t (insertAll t xs) := by
  have step (ys : List Value) (x : Value) (after : List Value) :
      (·.2) <$> insert t (insertAll t ys) x = .ok after ↔
        (∃ w, element t x = .ok w) ∧
          after = ((insertInPlace t x).on (insertAll t ys)).2 := by
    rw [held_insertInPlace (increasing_insertAll t ys), insert_eq_map_element]
    cases element t x <;> simp [Functor.map, Except.map, eq_comm]
  rw [Ty.create, map_eq_ok_iff]
  constructor
  · rintro ⟨_, created, rfl⟩
    obtain ⟨done, rfl⟩ := (foldlM_eq_ok_iff step).mp created
    exact ⟨done, rfl⟩
  · rintro ⟨done, rfl⟩
    exact ⟨_, (foldlM_eq_ok_iff step).mpr ⟨done, rfl⟩, rfl⟩

theorem cmpAll_insertAll_iff :
    Value.cmpAll (insertAll t xs) (insertAll t ys) = .eq ↔
      SameSet (elementsOf t xs) (elementsOf t ys) := by
  have held (zs : List Value) (v : Value) :
      (∃ z ∈ elementsOf t zs, z.cmp v = .eq) ↔ ∃ z ∈ insertAll t zs, z.cmp v = .eq := by
    rw [← contains_insertAll]
    exact Sorted.contains_iff
  have items : SameSet (elementsOf t xs) (elementsOf t ys) ↔
      SameSet (insertAll t xs) (insertAll t ys) := by
    unfold SameSet
    simp only [held]
  have left : Sorted.Increasing Value.cmp ((insertAll t xs).map id) := by
    rw [List.map_id]
    exact increasing_insertAll t xs
  have right : Sorted.Increasing Value.cmp ((insertAll t ys).map id) := by
    rw [List.map_id]
    exact increasing_insertAll t ys
  rw [items, sameSet_iff_partners, Value.cmpAll_eq_iff_forall₂]
  exact Sorted.forall₂_iff_partners id left right

theorem cmp_set_iff :
    (Value.set t (insertAll t xs)).cmp (.set t (insertAll t ys)) = .eq ↔
      SameSet (elementsOf t xs) (elementsOf t ys) := by
  rw [← cmpAll_insertAll_iff]
  simp [Value.cmp, Ty.cmp_eq_iff]

theorem sameSet_elementsOf (members : ∀ x, x ∈ ys ↔ x ∈ xs) :
    SameSet (elementsOf t xs) (elementsOf t ys) := by
  have same (w : Value) : w ∈ elementsOf t xs ↔ w ∈ elementsOf t ys := by
    simp [elementsOf, members]
  unfold SameSet
  simp [same]

end Set

section Map

variable {key value : Ty} {xs ys : List Value} {es fs cs ds : List (Value × Value)} {k v : Value}

/-- The same map, where the last entry of each key counts and equal values count as one. -/
def SameLatest (es fs : List (Value × Value)) : Prop :=
  ∀ k : Value, Option.Rel (fun v w => v.cmp w = .eq) (latest es k) (latest fs k)

theorem create_map_eq_ok_iff :
    (Ty.map key value).create xs = .ok v ↔
      xs.length % 2 = 0 ∧ (∀ c ∈ pairs xs, ∃ e, entry key value c.1 c.2 = .ok e) ∧
        v = .map key value (putAll key value (pairs xs)) := by
  have step (ds : List (Value × Value)) (c : Value × Value) (after : List (Value × Value)) :
      (·.2) <$> put key value (putAll key value ds) c.1 c.2 = .ok after ↔
        (∃ e, entry key value c.1 c.2 = .ok e) ∧
          after = ((putInPlace key value c.1 c.2).on (putAll key value ds)).2 := by
    rw [held_putInPlace (increasing_putAll key value ds), put_eq_map_entry]
    cases entry key value c.1 c.2 <;> simp [Functor.map, Except.map, eq_comm]
  rw [Ty.create]
  by_cases odd : xs.length % 2 = 1
  · simp [odd]
  · have even : xs.length % 2 = 0 := by omega
    rw [if_neg odd, map_eq_ok_iff]
    constructor
    · rintro ⟨_, created, rfl⟩
      obtain ⟨done, rfl⟩ := (foldlM_eq_ok_iff step).mp created
      exact ⟨even, done, rfl⟩
    · rintro ⟨-, done, rfl⟩
      exact ⟨_, (foldlM_eq_ok_iff step).mpr ⟨done, rfl⟩, rfl⟩

theorem rel_get?_of_forall₂
    (partners : List.Forall₂ (fun e f => e.1.cmp f.1 = .eq ∧ e.2.cmp f.2 = .eq) es fs) (k : Value) :
    Option.Rel (fun v w => v.cmp w = .eq) (get? es k) (get? fs k) := by
  unfold get? Sorted.get?
  induction partners with
  | nil => exact .none
  | @cons e f es fs first _ ih =>
    obtain ⟨keys, values⟩ := first
    have place : e.1.cmp k = f.1.cmp k := Std.TransCmp.congr_left keys
    rw [List.find?_cons, List.find?_cons, place]
    cases f.1.cmp k == .eq with
    | true => exact .some values
    | false => exact ih

theorem exists_partner_of_rel (increasing : Sorted.Increasing Value.cmp (es.map (·.1)))
    (rel : ∀ k, Option.Rel (fun v w => v.cmp w = .eq) (get? es k) (get? fs k)) :
    ∀ e ∈ es, ∃ f ∈ fs, e.1.cmp f.1 = .eq ∧ e.2.cmp f.2 = .eq := by
  intro e he
  have here := rel e.1
  rw [show get? es e.1 = some e.2 from
    Sorted.get?_of_mem increasing he Std.ReflCmp.compare_self] at here
  cases found : get? fs e.1 with
  | none =>
    rw [found] at here
    contradiction
  | some w =>
    rw [found] at here
    cases here with
    | some values =>
      obtain ⟨f, hf, keys, rfl⟩ := Sorted.exists_mem_of_get? found
      exact ⟨f, hf, Std.OrientedCmp.eq_symm keys, values⟩

theorem rel_symm {a b : Option Value} (rel : Option.Rel (fun v w => v.cmp w = .eq) a b) :
    Option.Rel (fun v w => v.cmp w = .eq) b a := by
  cases rel with
  | some equal => exact .some (Std.OrientedCmp.eq_symm equal)
  | none => exact .none

theorem cmpEntries_putAll_iff :
    Value.cmpEntries (putAll key value cs) (putAll key value ds) = .eq ↔
      SameLatest (entriesOf key value cs) (entriesOf key value ds) := by
  have left := increasing_putAll key value cs
  have right := increasing_putAll key value ds
  unfold SameLatest
  simp only [← get?_putAll, Value.cmpEntries_eq_iff_forall₂]
  constructor
  · exact rel_get?_of_forall₂
  · intro rel
    apply Sorted.forall₂_of_partners (fun both => both.1) left right
    · exact exists_partner_of_rel left rel
    · intro f hf
      obtain ⟨e, he, keys, values⟩ := exists_partner_of_rel right (fun k => rel_symm (rel k)) f hf
      exact ⟨e, he, Std.OrientedCmp.eq_symm keys, Std.OrientedCmp.eq_symm values⟩

theorem cmp_map_iff :
    (Value.map key value (putAll key value cs)).cmp (.map key value (putAll key value ds)) = .eq ↔
      SameLatest (entriesOf key value cs) (entriesOf key value ds) := by
  rw [← cmpEntries_putAll_iff]
  simp [Value.cmp, Ty.cmp_eq_iff]

def DistinctKeys (es : List (Value × Value)) : Prop := es.Pairwise fun e f => e.1.cmp f.1 ≠ .eq

theorem latest_eq_some_iff (distinct : DistinctKeys es) :
    latest es k = some v ↔ ∃ e ∈ es, e.1.cmp k = .eq ∧ e.2 = v := by
  induction es using List.reverseRecOn with
  | nil => simp [latest]
  | append_singleton es f ih =>
    obtain ⟨before, -, other⟩ := List.pairwise_append.mp distinct
    rw [latest_concat]
    split
    · rename_i equal
      have alone : ∀ e ∈ es, e.1.cmp k ≠ .eq := fun e he same =>
        other e he f (by simp) ((Std.TransCmp.congr_right equal).trans same)
      constructor
      · intro found
        exact ⟨f, by simp, equal, Option.some.inj found⟩
      · rintro ⟨e, he, same, rfl⟩
        rcases List.mem_append.mp he with he | he
        · exact absurd same (alone e he)
        · rw [List.mem_singleton.mp he]
    · rename_i different
      rw [ih before]
      simp [or_and_right, exists_or, different]

theorem sameLatest_of_perm (perm : es.Perm fs) (distinct : DistinctKeys es) :
    SameLatest es fs := by
  have distinct' : DistinctKeys fs :=
    perm.pairwise distinct fun different same => different (Std.OrientedCmp.eq_symm same)
  intro k
  have same : latest es k = latest fs k := by
    ext v
    rw [latest_eq_some_iff distinct, latest_eq_some_iff distinct']
    simp only [perm.mem_iff]
  rw [same]
  cases latest fs k with
  | none => exact .none
  | some v => exact .some Std.ReflCmp.compare_self

end Map

/-- Sets and maps are extensional. Two sets of one type are equal exactly if their arguments, in the
forms in which they are stored, are the same set; and two maps of one type exactly if their
arguments give each key the same last value. So arguments of a set may be reordered and repeated,
and entries of a map with different keys reordered, without any change of the value, its hash or
its text. -/
theorem create_extensional :
    (∀ t xs ys v w, (Ty.set t).create xs = .ok v → (Ty.set t).create ys = .ok w →
      List.Forall₂ (fun x a => t.coerce x = .ok a) xs (elementsOf t xs) ∧
        (v.cmp w = .eq ↔ SameSet (elementsOf t xs) (elementsOf t ys))) ∧
    (∀ key value xs ys v w, (Ty.map key value).create xs = .ok v →
      (Ty.map key value).create ys = .ok w →
        List.Forall₂ (fun c e => key.coerce c.1 = .ok e.1 ∧ value.coerce c.2 = .ok e.2) (pairs xs)
            (entriesOf key value (pairs xs)) ∧
          (v.cmp w = .eq ↔
            SameLatest (entriesOf key value (pairs xs)) (entriesOf key value (pairs ys)))) ∧
    (∀ t xs ys v, (Ty.set t).create xs = .ok v → (∀ x, x ∈ ys ↔ x ∈ xs) →
      ∃ w, (Ty.set t).create ys = .ok w ∧ v.cmp w = .eq ∧ v.hash = w.hash ∧
        v.toText = w.toText) ∧
    ∀ key value xs ys v, (Ty.map key value).create xs = .ok v → ys.length = xs.length →
      (pairs xs).Perm (pairs ys) → DistinctKeys (entriesOf key value (pairs xs)) →
        ∃ w, (Ty.map key value).create ys = .ok w ∧ v.cmp w = .eq ∧ v.hash = w.hash ∧
          v.toText = w.toText := by
  refine ⟨?_, ?_, ?_, ?_⟩
  · intro t xs ys v w first second
    obtain ⟨done, rfl⟩ := create_set_eq_ok_iff.mp first
    obtain ⟨-, rfl⟩ := create_set_eq_ok_iff.mp second
    refine ⟨?_, cmp_set_iff⟩
    exact (forall₂_filterMap_toOption done).imp fun _ _ made => (element_eq_ok_iff.mp made).2
  · intro key value xs ys v w first second
    obtain ⟨-, done, rfl⟩ := create_map_eq_ok_iff.mp first
    obtain ⟨-, -, rfl⟩ := create_map_eq_ok_iff.mp second
    refine ⟨?_, cmp_map_iff⟩
    refine (forall₂_filterMap_toOption done).imp fun _ _ made => ?_
    obtain ⟨k, v⟩ := entry_eq_ok_iff.mp made
    exact ⟨(element_eq_ok_iff.mp k).2, (element_eq_ok_iff.mp v).2⟩
  · intro t xs ys v created members
    obtain ⟨done, rfl⟩ := create_set_eq_ok_iff.mp created
    have done' : ∀ y ∈ ys, ∃ w, element t y = .ok w := fun y hy => done y ((members y).mp hy)
    have equal := cmp_set_iff.mpr (sameSet_elementsOf (t := t) members)
    exact ⟨_, create_set_eq_ok_iff.mpr ⟨done', rfl⟩, equal, Value.shown_alike equal⟩
  · intro key value xs ys v created length perm distinct
    obtain ⟨even, done, rfl⟩ := create_map_eq_ok_iff.mp created
    have done' : ∀ c ∈ pairs ys, ∃ e, entry key value c.1 c.2 = .ok e :=
      fun c hc => done c (perm.mem_iff.mpr hc)
    have entries : (entriesOf key value (pairs xs)).Perm (entriesOf key value (pairs ys)) :=
      perm.filterMap _
    have equal := cmp_map_iff.mpr (sameLatest_of_perm entries distinct)
    exact ⟨_, create_map_eq_ok_iff.mpr ⟨length ▸ even, done', rfl⟩, equal,
      Value.shown_alike equal⟩

theorem create_extensional_nested :
    let int : Ty := .scalar .int
    let one : Value := .fixed .int ⟨1, by decide, by decide⟩
    let two : Value := .fixed .int ⟨2, by decide, by decide⟩
    let long : Value := .long ⟨1, by decide, by decide⟩
    let single (v : Value) : Value := .set int [v]
    let xs := [single two, single one, single two]
    let ys := [single one, single two]
    let es := [long, single one, two, single two]
    let fs := [two, single two, long, single one]
    let v := Value.set (.set int) ys
    let m := Value.map int (.set int) [(one, single one), (two, single two)]
    ((Ty.set (.set int)).create xs = .ok v ∧
      (∃ w, (Ty.set (.set int)).create ys = .ok w ∧ v.cmp w = .eq) ∧
      SameSet (elementsOf (.set int) xs) (elementsOf (.set int) ys)) ∧
    (Ty.map int (.set int)).create es = .ok m ∧
      (∃ w, (Ty.map int (.set int)).create fs = .ok w ∧ m.cmp w = .eq) ∧
      SameLatest (entriesOf int (.set int) (pairs es)) (entriesOf int (.set int) (pairs fs)) := by
  intro int one two long single xs ys es fs v m
  obtain ⟨sets, maps, members, entries⟩ := create_extensional
  have xv : (Ty.set (.set int)).create xs = .ok v := rfl
  have yv : (Ty.set (.set int)).create ys = .ok v := rfl
  have em : (Ty.map int (.set int)).create es = .ok m := by
    subst int one two long single es m
    rfl
  have fm : (Ty.map int (.set int)).create fs = .ok m := by
    subst int one two long single fs m
    rfl
  have same : ∀ x, x ∈ ys ↔ x ∈ xs := by
    intro x
    simp only [xs, ys, List.mem_cons, List.not_mem_nil]
    tauto
  have perm : (pairs es).Perm (pairs fs) := .swap _ _ []
  have distinct : DistinctKeys (entriesOf int (.set int) (pairs es)) := by
    have split : entriesOf int (.set int) (pairs es) = [(one, single one), (two, single two)] := rfl
    rw [split]
    exact .cons (by simp; decide) (List.pairwise_singleton _ _)
  obtain ⟨w, made, equal, -⟩ := members _ xs ys v xv same
  obtain ⟨u, built, alike, -⟩ := entries _ _ es fs m em rfl perm distinct
  have self (a : Value) : a.cmp a = .eq := Std.ReflCmp.compare_self
  exact ⟨⟨xv, ⟨w, made, equal⟩, (sets _ xs ys v v xv yv).2.mp (self v)⟩, em, ⟨u, built, alike⟩,
    (maps _ _ es fs m m em fm).2.mp (self m)⟩

end Container

end Cql
