import Cql.Proofs.Container.InPlace
import Cql.Value.Json

/-!
User type values as objects. A name is stored and looked up in the first field that has it, so that
all its other fields stay null; but of members with one name an object keeps the last. So an object
tells what looking up tells, unless a name that comes twice has a value.
-/

namespace Cql

namespace Sorted

variable {β : Type}

theorem get?_eq_lookup (k : String) (entries : List (String × β)) :
    get? compare k entries = entries.lookup k := by
  induction entries with
  | nil => rfl
  | cons e entries ih =>
    obtain ⟨l, v⟩ := e
    unfold get? at *
    rw [Assoc.lookup_cons, ← ih, List.find?_cons]
    by_cases same : k = l
    · simp [same]
    · have other : (compare l k == .eq) = false := by
        simpa [Std.compare_eq_iff_eq] using fun h : l = k => same h.symm
      simp [same, other]

end Sorted

namespace Json

def member? : Json → String → Option Json
  | .object members, name => members.lookup name
  | _, _ => none

/-- The members of an object are put one after another, so under a name stands the last one. -/
theorem member?_ofMembers (members : List (String × Json)) (name : String) :
    (ofMembers members).member? name = members.reverse.lookup name := by
  have increasing (members : List (String × Json)) : Sorted.Increasing compare
      ((members.foldl (fun o m => (Sorted.put compare m.1 m.2 o).2) []).map (·.1)) := by
    induction members using List.reverseRecOn with
    | nil => exact .nil
    | append_singleton members m ih =>
      rw [List.foldl_concat]
      exact Sorted.increasing_put ih m.1 m.2
  unfold ofMembers member?
  dsimp only
  induction members using List.reverseRecOn with
  | nil => rfl
  | append_singleton members m ih =>
    obtain ⟨k, v⟩ := m
    rw [List.foldl_concat, List.reverse_concat, Assoc.lookup_cons, ← ih,
      ← Sorted.get?_eq_lookup, ← Sorted.get?_eq_lookup,
      Sorted.get?_put (increasing members)]
    simp only [Std.compare_eq_iff_eq, @eq_comm _ k name]

end Json

theorem Value.slotJsons_eq_map (fields : List (String × Ty)) (xs : List Value) :
    slotJsons fields xs = (fields.zip xs).map fun s => (s.1.1, s.2.toJson) := by
  induction fields generalizing xs with
  | nil => cases xs <;> rfl
  | cons f fields ih =>
    cases xs with
    | nil => rfl
    | cons x xs => rw [slotJsons, ih, List.zip_cons_cons, List.map_cons]

namespace Container

variable {u : UserType} {xs : List Value} {name : String} {v : Value}

def setAll (u : UserType) (calls : List (String × Value)) : List Value :=
  calls.foldl (fun xs c => ((setFieldInPlace u c.1 c.2).on xs).2) (emptySlots u.fields.length)

/-- There is a slot for every field, and a field that is not the first of its name has none but
null. -/
structure FirstFields (u : UserType) (xs : List Value) : Prop where
  size : xs.length = u.fields.length
  null : ∀ index f, u.fields[index]? = some f → u.fieldIndex? f.1 ≠ some index →
    xs[index]? = some .null

theorem firstFields_empty (u : UserType) : FirstFields u (emptySlots u.fields.length) := by
  constructor
  · exact List.length_replicate
  · intro index f field _
    obtain ⟨below, -⟩ := List.getElem?_eq_some_iff.mp field
    simp [emptySlots, below]

theorem held_setFieldInPlace (u : UserType) (xs : List Value) (name : String) (v : Value) :
    ((setFieldInPlace u name v).on xs).2 = xs ∨
      ∃ index w, u.fieldIndex? name = some index ∧
        ((setFieldInPlace u name v).on xs).2 = xs.set index w := by
  rw [setFieldInPlace_on]
  cases made : setField u xs name v with
  | error fault => exact .inl rfl
  | ok ys =>
    obtain ⟨index, t, w, first, -, -, rfl⟩ := setField_eq_ok_iff.mp made
    exact .inr ⟨index, w, first, rfl⟩

theorem FirstFields.setFieldInPlace (kept : FirstFields u xs) (name : String) (v : Value) :
    FirstFields u ((setFieldInPlace u name v).on xs).2 := by
  rcases held_setFieldInPlace u xs name v with same | ⟨first, w, found, changed⟩
  · rw [same]
    exact kept
  · rw [changed]
    constructor
    · rw [List.length_set]
      exact kept.size
    · intro index f field hidden
      have other : first ≠ index := by
        rintro rfl
        obtain ⟨below, named, -⟩ := List.findIdx?_eq_some_iff_getElem.mp found
        obtain rfl : u.fields[first] = f := (List.getElem?_eq_some_iff.mp field).2
        rw [eq_of_beq named] at hidden
        exact hidden found
      rw [List.getElem?_set_ne other]
      exact kept.null index f field hidden

theorem firstFields_setAll (u : UserType) (calls : List (String × Value)) :
    FirstFields u (setAll u calls) := by
  induction calls using List.reverseRecOn with
  | nil => exact firstFields_empty u
  | append_singleton calls c ih =>
    unfold setAll
    rw [List.foldl_concat]
    exact ih.setFieldInPlace c.1 c.2

theorem count_eq_one_iff {names before after : List String} (split : names = before ++ name :: after)
    (last : name ∉ after) :
    names.count name = 1 ↔ names.findIdx? (· == name) = some before.length := by
  have single : names.count name = 1 ↔ name ∉ before := by
    rw [split, List.count_append, List.count_cons_self, List.count_eq_zero.mpr last,
      ← List.count_eq_zero]
    omega
  rw [single, split, List.findIdx?_append, List.findIdx?_cons]
  cases first : before.findIdx? (· == name) with
  | none =>
    have absent : name ∉ before := fun present => by
      simpa using List.findIdx?_eq_none_iff.mp first name present
    simp [absent]
  | some index =>
    obtain ⟨below, named, -⟩ := List.findIdx?_eq_some_iff_getElem.mp first
    have present : name ∈ before := eq_of_beq named ▸ List.getElem_mem below
    simp [present, below.ne]

theorem exists_last_slot {fields : List (String × Ty)} (size : xs.length = fields.length)
    (declared : name ∈ fields.map (·.1)) :
    ∃ before t x after, fields.zip xs = before ++ ((name, t), x) :: after ∧
      name ∉ after.map (·.1.1) := by
  obtain ⟨f, present, rfl⟩ := List.mem_map.mp declared
  rw [← List.map_fst_zip size.ge] at present
  obtain ⟨s, member, rfl⟩ := List.mem_map.mp present
  obtain ⟨⟨⟨n, t⟩, x⟩, found⟩ := Option.isSome_iff_exists.mp
    (List.find?_isSome.mpr ⟨s, List.mem_reverse.mpr member, beq_self_eq_true s.1.1⟩ :
      ((fields.zip xs).reverse.find? (·.1.1 == s.1.1)).isSome)
  obtain ⟨named, after, before, split, last⟩ := List.find?_eq_some_iff_append.mp found
  obtain rfl : n = s.1.1 := eq_of_beq named
  refine ⟨before.reverse, t, x, after.reverse, ?_, ?_⟩
  · rw [← List.reverse_reverse (fields.zip xs), split]
    simp
  · intro again
    obtain ⟨r, hr, same⟩ := List.mem_map.mp again
    simpa [same] using last r (List.mem_reverse.mp hr)

theorem member?_toJson_of_last {before after : List ((String × Ty) × Value)} {t : Ty} {x : Value}
    (split : u.fields.zip xs = before ++ ((name, t), x) :: after)
    (last : name ∉ after.map (·.1.1)) :
    (Value.user u xs).toJson.member? name = some x.toJson := by
  rw [Value.toJson, Json.member?_ofMembers, Value.slotJsons_eq_map, split,
    List.lookup_eq_some_iff]
  refine ⟨(after.map fun s => (s.1.1, s.2.toJson)).reverse,
    (before.map fun s => (s.1.1, s.2.toJson)).reverse, by simp, ?_⟩
  intro m hm
  obtain ⟨s, hs, rfl⟩ := List.mem_map.mp (List.mem_reverse.mp hm)
  rw [bne_iff_ne]
  rintro rfl
  exact last (List.mem_map_of_mem hs)

theorem exists_getField? (size : xs.length = u.fields.length)
    (declared : name ∈ u.fields.map (·.1)) : ∃ x, getField? u xs name = some x := by
  obtain ⟨f, present, rfl⟩ := List.mem_map.mp declared
  have known : (u.fieldIndex? f.1).isSome :=
    List.findIdx?_isSome.trans (List.any_eq_true.mpr ⟨f, present, beq_self_eq_true f.1⟩)
  obtain ⟨first, found⟩ := Option.isSome_iff_exists.mp known
  obtain ⟨below, -⟩ := List.findIdx?_eq_some_iff_getElem.mp found
  rw [getField?, found, Option.bind_some]
  exact ⟨_, List.getElem?_eq_getElem (size ▸ below)⟩

theorem FirstFields.member?_toJson (kept : FirstFields u xs)
    (declared : name ∈ u.fields.map (·.1)) :
    ∃ x, getField? u xs name = some x ∧
      (Value.user u xs).toJson.member? name =
        some (if (u.fields.map (·.1)).count name = 1 then x.toJson else .null) := by
  obtain ⟨before, t, x, after, split, last⟩ := exists_last_slot kept.size declared
  have slot : (u.fields.zip xs)[before.length]? = some ((name, t), x) := by
    rw [split]
    simp
  obtain ⟨field, held⟩ := List.getElem?_zip_eq_some.mp slot
  have names : u.fields.map (·.1) = before.map (·.1.1) ++ name :: after.map (·.1.1) := by
    rw [← List.map_fst_zip kept.size.ge, split]
    simp [Function.comp_def]
  have only : (u.fields.map (·.1)).count name = 1 ↔ u.fieldIndex? name = some before.length := by
    have first := count_eq_one_iff names last
    rwa [List.length_map, List.findIdx?_map] at first
  rw [member?_toJson_of_last split last]
  by_cases alone : (u.fields.map (·.1)).count name = 1
  · refine ⟨x, ?_, by rw [if_pos alone]⟩
    rw [getField?, only.mp alone, Option.bind_some, held]
  · have null := kept.null before.length (name, t) field (mt only.mpr alone)
    obtain rfl : x = .null := Option.some.inj (held.symm.trans null)
    obtain ⟨y, found⟩ := exists_getField? kept.size declared
    exact ⟨y, found, by rw [if_neg alone, Value.toJson]⟩

/-- Whatever calls led to a user type value, its object has under the name of each field what
looking up this name gives if no other field has the name, and null if another has, whatever the
first of them holds. So object and look-up agree exactly if all that is looked up under names that
come twice is null in JSON. -/
theorem member?_setAll (u : UserType) (calls : List (String × Value)) :
    let xs := setAll u calls
    let names := u.fields.map (·.1)
    let json := (Value.user u xs).toJson
    (∀ name ∈ names, ∃ x, getField? u xs name = some x ∧
      json.member? name = some (if names.count name = 1 then x.toJson else .null)) ∧
      ((∀ name ∈ names, json.member? name = (getField? u xs name).map Value.toJson) ↔
        ∀ name ∈ names, 1 < names.count name →
          (getField? u xs name).map Value.toJson = some .null) := by
  intro xs names json
  have members : ∀ name ∈ names, ∃ x, getField? u xs name = some x ∧
      json.member? name = some (if names.count name = 1 then x.toJson else .null) :=
    fun _ => (firstFields_setAll u calls).member?_toJson
  refine ⟨members, forall₂_congr fun name declared => ?_⟩
  obtain ⟨x, found, member⟩ := members name declared
  have present : 0 < names.count name := List.count_pos_iff.mpr declared
  rw [member, found, Option.map_some]
  by_cases alone : names.count name = 1
  · rw [if_pos alone]
    simp [alone]
  · have twice : 1 < names.count name := by omega
    rw [if_neg alone]
    simp [twice, eq_comm]

theorem member?_setAll_twice :
    let int : Ty := .scalar .int
    let u : UserType := ⟨none, [("a", int), ("b", int), ("a", .scalar .text)]⟩
    let four : Fixed .int := ⟨4, by decide, by decide⟩
    let long : Value := .long ⟨4, by decide, by decide⟩
    let xs := setAll u [("a", long), ("a", .text "four"), ("b", long)]
    xs = [.fixed .int four, .fixed .int four, .null] ∧
      (∃ x, getField? u xs "b" = some x ∧ x = .fixed .int four ∧
        (Value.user u xs).toJson.member? "b" = some x.toJson) ∧
      ∃ x, getField? u xs "a" = some x ∧ x = .fixed .int four ∧
        (Value.user u xs).toJson.member? "a" = some .null := by
  intro int u four long xs
  obtain ⟨members, -⟩ := member?_setAll u [("a", long), ("a", .text "four"), ("b", long)]
  obtain ⟨x, b, single⟩ := members "b" (by decide)
  obtain ⟨y, a, repeated⟩ := members "a" (by decide)
  refine ⟨rfl, ⟨x, b, ?_, single⟩, ⟨y, a, ?_, repeated⟩⟩
  · exact Option.some.inj (b.symm.trans rfl)
  · exact Option.some.inj (a.symm.trans rfl)

/-- A value of a field that its object does not tell. -/
theorem member?_setAll_lost :
    let u : UserType := ⟨none, [("a", .scalar .int), ("a", .scalar .text)]⟩
    let four : Fixed .int := ⟨4, by decide, by decide⟩
    let xs := setAll u [("a", .long ⟨4, by decide, by decide⟩)]
    getField? u xs "a" = some (.fixed .int four) ∧
      (Value.user u xs).toJson.member? "a" = some .null ∧
      ¬ ∀ (u : UserType) (calls : List (String × Value)), ∀ name ∈ u.fields.map (·.1),
        (Value.user u (setAll u calls)).toJson.member? name =
          (getField? u (setAll u calls) name).map Value.toJson := by
  intro u four xs
  have looked : getField? u xs "a" = some (.fixed .int four) := rfl
  have told : (Value.user u xs).toJson.member? "a" = some .null := rfl
  refine ⟨looked, told, fun always => ?_⟩
  have agreed := always u [("a", .long ⟨4, by decide, by decide⟩)] "a" (by decide)
  rw [told, looked] at agreed
  simp [Value.toJson] at agreed

end Container

end Cql
