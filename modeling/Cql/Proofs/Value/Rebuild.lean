import Cql.Proofs.Value.Sound

namespace Cql

theorem foldlM_append {ε α : Type} {f : List α → α → Except ε (List α)} {xs : List α}
    (step : ∀ done x rest, xs = done ++ x :: rest → f done x = .ok (done ++ [x])) :
    xs.foldlM f [] = .ok xs := by
  have fold (rest done : List α) (split : xs = done ++ rest) : rest.foldlM f done = .ok xs := by
    induction rest generalizing done with
    | nil =>
      rw [split, List.append_nil]
      rfl
    | cons x rest ih =>
      rw [List.foldlM_cons, step done x rest split]
      exact ih (done ++ [x]) (by simpa using split)
  exact fold xs [] rfl

namespace Value

variable {t : Ty} {xs : List Value}

theorem stored_canonical {x : Value} (stored : Stored t x) : Stored t x.canonical := by
  obtain ⟨present, coerced⟩ := Container.element_eq_ok_iff.mp stored
  refine Container.element_eq_ok_iff.mpr ⟨?_, Ty.coerce_canonical coerced⟩
  cases x <;> exact present

theorem fits_canonical {ts : List Ty} (fits : List.Forall₂ Fits ts xs) :
    List.Forall₂ Fits ts (xs.map canonical) :=
  List.forall₂_map_right_iff.mpr (fits.imp fun _ _ h => Ty.coerce_canonical h)

theorem increasing_canonical (increasing : Sorted.Increasing cmp xs) :
    Sorted.Increasing cmp (xs.map canonical) := by
  apply List.pairwise_map.mpr
  apply increasing.imp
  intro a b less
  rw [cmp_canonical]
  exact less

theorem create_list (stored : ∀ x ∈ xs, Stored t x) : (Ty.list t).create xs = .ok (.list t xs) := by
  have items : xs.foldlM (Container.push t) [] = .ok xs := by
    apply foldlM_append
    intro done x rest split
    exact Container.push_eq_ok_iff.mpr ⟨x, stored x (by simp [split]), rfl⟩
  rw [Ty.create, items]
  rfl

theorem create_set (stored : ∀ x ∈ xs, Stored t x) (increasing : Sorted.Increasing cmp xs) :
    (Ty.set t).create xs = .ok (.set t xs) := by
  have items :
      xs.foldlM (fun items v => (·.2) <$> Container.insert t items v) [] = .ok xs := by
    apply foldlM_append
    intro done x rest split
    have greatest : ∀ y ∈ done, cmp y x = .lt := fun y h =>
      (List.pairwise_append.mp (split ▸ increasing)).2.2 y h x List.mem_cons_self
    have inserted : Container.insert t done x = .ok (true, done ++ [x]) :=
      Container.insert_eq_ok_iff.mpr
        ⟨x, stored x (by simp [split]), Sorted.insert_last greatest⟩
    rw [inserted]
    rfl
  rw [Ty.create, items]
  rfl

theorem pairs_flatten {α β : Type} {f g : β → α} (es : List β) :
    pairs (es.map fun e => [f e, g e]).flatten = es.map fun e => (f e, g e) := by
  induction es with
  | nil => rfl
  | cons e es ih => exact congrArg ((f e, g e) :: ·) ih

theorem length_flatten_pairs {α β : Type} {f g : β → α} (es : List β) :
    (es.map fun e => [f e, g e]).flatten.length = 2 * es.length := by
  induction es with
  | nil => rfl
  | cons e es ih =>
    rw [List.map_cons, List.flatten_cons, List.length_append, ih]
    simp
    omega

theorem create_map {key value : Ty} {es : List (Value × Value)}
    (stored : ∀ e ∈ es, Stored key e.1 ∧ Stored value e.2)
    (increasing : Sorted.Increasing cmp (es.map (·.1))) :
    (Ty.map key value).create (es.map fun e => [e.1, e.2]).flatten = .ok (.map key value es) := by
  have entries : es.foldlM
      (fun es e => (·.2) <$> Container.put key value es e.1 e.2) [] = .ok es := by
    apply foldlM_append
    intro done e rest split
    have greatest : ∀ d ∈ done, cmp d.1 e.1 = .lt := by
      intro d h
      rw [split, List.map_append] at increasing
      exact (List.pairwise_append.mp increasing).2.2 d.1 (List.mem_map_of_mem h) e.1
        (by simp)
    obtain ⟨storedKey, storedValue⟩ := stored e (by simp [split])
    have put : Container.put key value done e.1 e.2 = .ok (none, done ++ [e]) :=
      Container.put_eq_ok_iff.mpr
        ⟨e.1, e.2, storedKey, storedValue, Sorted.put_last greatest⟩
    rw [put]
    rfl
  rw [Ty.create, if_neg (by rw [length_flatten_pairs]; omega), pairs_flatten, List.map_id', entries]
  rfl

theorem set_emptySlots (done : List Value) (size : Nat) (x : Value) :
    (done ++ Container.emptySlots (size + 1)).set done.length x =
      done ++ [x] ++ Container.emptySlots size := by
  simp [Container.emptySlots, List.replicate_succ]

theorem getElem?_of_drop {α : Type} {items rest : List α} {n : Nat} {y : α}
    (left : items.drop n = y :: rest) : items[n]? = some y ∧ items.drop (n + 1) = rest := by
  constructor
  · rw [← List.head?_drop, left]
    rfl
  · rw [← List.drop_drop, left]
    rfl

theorem fillSlots_emptySlots {ts us : List Ty} (done : List Value) (fits : List.Forall₂ Fits us xs)
    (left : ts.drop done.length = us) :
    Container.fillSlots ts done.length (done ++ Container.emptySlots us.length) xs =
      .ok (done ++ xs) := by
  induction fits generalizing done with
  | nil => simp [Container.fillSlots, Container.emptySlots]
  | @cons t x us xs first rest ih =>
    obtain ⟨here, left'⟩ := getElem?_of_drop left
    have filled :
        Container.setSlot ts (done ++ Container.emptySlots (t :: us).length) done.length x =
          .ok (done ++ [x] ++ Container.emptySlots us.length) :=
      Container.setSlot_eq_ok_iff.mpr
        ⟨t, x, here, first, (set_emptySlots done us.length x).symm⟩
    have others := ih (done ++ [x]) (by simpa using left')
    rw [List.length_append, List.length_singleton] at others
    rw [Container.fillSlots, filled]
    simpa using others

theorem create_tuple {ts : List Ty} (fits : List.Forall₂ Fits ts xs) :
    (Ty.tuple ts).create xs = .ok (.tuple ts xs) := by
  have same := fits.length_eq
  simp only [Ty.create]
  split
  · rename_i none
    obtain rfl : xs = [] := List.isEmpty_iff.mp none
    rw [same]
    rfl
  · have filled : Container.fillSlots ts 0 (Container.emptySlots ts.length) xs = .ok xs :=
      fillSlots_emptySlots [] fits rfl
    rw [if_neg (by simp [same]), filled]
    rfl

theorem findIdx?_of_nodup {fields : List (String × Ty)} (distinct : (fields.map (·.1)).Nodup)
    {index : Nat} {f : String × Ty} (here : fields[index]? = some f) :
    fields.findIdx? (·.1 == f.1) = some index := by
  induction fields generalizing index with
  | nil => simp at here
  | cons g fields ih =>
    obtain ⟨new, distinct⟩ := List.nodup_cons.mp distinct
    cases index with
    | zero =>
      obtain rfl := Option.some.inj here
      simp [List.findIdx?_cons]
    | succ index =>
      have there : fields[index]? = some f := by simpa using here
      have other : g.1 ≠ f.1 := by
        intro same
        apply new
        change g.1 ∈ _
        rw [same]
        exact List.mem_map_of_mem (List.mem_of_getElem? there)
      rw [List.findIdx?_cons, beq_false_of_ne other, ih distinct there]
      rfl

theorem fillFields_emptySlots {u : UserType} (distinct : (u.fields.map (·.1)).Nodup)
    {fs : List (String × Ty)} (done : List Value) (position : Nat)
    (fits : List.Forall₂ Fits (fs.map (·.2)) xs) (left : u.fields.drop done.length = fs) :
    Container.fillFields u position (done ++ Container.emptySlots fs.length)
      ((fs.zip xs).map fun s => (.text s.1.1, s.2)) = .ok (done ++ xs) := by
  induction fs generalizing done position xs with
  | nil =>
    obtain rfl := List.forall₂_nil_left_iff.mp fits
    simp [Container.fillFields, Container.emptySlots]
  | cons f fs ih =>
    obtain ⟨x, xs, first, rest, rfl⟩ := List.forall₂_cons_left_iff.mp fits
    obtain ⟨here, left'⟩ := getElem?_of_drop left
    have filled :
        Container.setField u (done ++ Container.emptySlots (f :: fs).length) f.1 x =
          .ok (done ++ [x] ++ Container.emptySlots fs.length) :=
      Container.setField_eq_ok_iff.mpr
        ⟨done.length, f.2, x, findIdx?_of_nodup distinct here, by simp [here], first,
          (set_emptySlots done fs.length x).symm⟩
    have others := ih (done ++ [x]) (position + 2) rest (by simpa using left')
    rw [List.zip_cons_cons, List.map_cons, Container.fillFields]
    simp only [asText?, filled, bind, Except.bind]
    simpa using others

theorem create_user {label : Option Label} {fields : List (String × Ty)}
    (fits : List.Forall₂ Fits (fields.map (·.2)) xs) (distinct : (fields.map (·.1)).Nodup) :
    (Ty.user label fields).create ((fields.zip xs).map fun s => [.text s.1.1, s.2]).flatten =
      .ok (.user ⟨label, fields⟩ xs) := by
  have filled := fillFields_emptySlots (u := ⟨label, fields⟩) distinct [] 1 fits rfl
  simp only [Ty.create]
  rw [if_neg (by rw [length_flatten_pairs]; omega), pairs_flatten]
  rw [List.nil_append, List.nil_append] at filled
  rw [filled]
  rfl

end Value

end Cql
