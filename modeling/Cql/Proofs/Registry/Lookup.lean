import Cql.Proofs.Registry
import Mathlib.Data.List.Dedup
import Mathlib.Data.List.Find

/-!
What a registry answers for a keyspace and a name. It keeps every type under one text, in which a
point joins the two, so it tells pairs apart only as far as these texts differ. After any
registrations it is the map from pairs to types that they describe exactly if no keyspace and no
name among them has a point in it.
-/

namespace Cql

def Undotted (name : String) : Prop := '.' ∉ name.toList

instance (name : String) : Decidable (Undotted name) := inferInstanceAs (Decidable (¬ _))

section Points

theorem exists_append_of_dotted {name : String} (dotted : ¬ Undotted name) :
    ∃ first second : String, name = first ++ "." ++ second := by
  obtain ⟨s, t, split⟩ := List.append_of_mem (not_not.mp dotted)
  exact ⟨String.ofList s, String.ofList t, String.toList_injective (by simp [split])⟩

theorem toList_foldCase (s : String) : (foldCase s).toList = s.toList.map Char.toLower := by
  simp [foldCase]

theorem foldCase_append (s t : String) : foldCase (s ++ t) = foldCase s ++ foldCase t := by
  simp [foldCase]

theorem eq_point_of_toLower {c : Char} (h : c.toLower = '.') : c = '.' := by
  unfold Char.toLower at h
  split at h
  · rename_i capital
    have low : 65 ≤ c.toNat := UInt32.le_iff_toNat_le.mp capital.1
    have high : c.toNat ≤ 90 := UInt32.le_iff_toNat_le.mp capital.2
    have code : (c.toNat + 32) % 2 ^ 32 = 46 := congrArg Char.toNat h
    omega
  · exact h

theorem undotted_foldCase {name : String} : Undotted (foldCase name) ↔ Undotted name := by
  unfold Undotted
  rw [toList_foldCase, List.mem_map, not_iff_not]
  constructor
  · rintro ⟨c, member, low⟩
    exact eq_point_of_toLower low ▸ member
  · exact fun member => ⟨'.', member, rfl⟩

end Points

namespace Registry

section Keys

variable {keyspace name keyspace' name' : String}

theorem toList_key (keyspace name : String) :
    (key keyspace name).toList = (foldCase keyspace).toList ++ '.' :: (foldCase name).toList := by
  simp [key]

theorem key_eq_of_same (keyspaces : foldCase keyspace = foldCase keyspace')
    (names : foldCase name = foldCase name') : key keyspace name = key keyspace' name' := by
  unfold key
  rw [keyspaces, names]

/-- A pair without points shares its key with no other pair, whether that has points or not. -/
theorem key_eq_iff_of_undotted (first : Undotted keyspace) (second : Undotted name) :
    key keyspace name = key keyspace' name' ↔
      foldCase keyspace = foldCase keyspace' ∧ foldCase name = foldCase name' := by
  constructor
  · intro same
    have lists := congrArg String.toList same
    rw [toList_key, toList_key] at lists
    obtain ⟨keyspaces, names⟩ := split_at_mark (.inl (undotted_foldCase.mpr first))
      (.inr (undotted_foldCase.mpr second)) lists
    exact ⟨String.toList_injective keyspaces, String.toList_injective names⟩
  · exact fun same => key_eq_of_same same.1 same.2

theorem key_shift (first middle last : String) :
    key (first ++ "." ++ middle) last = key first (middle ++ "." ++ last) := by
  have point : foldCase "." = "." := rfl
  simp only [key, foldCase_append, point, String.append_assoc]

theorem foldCase_ne_append (first middle : String) :
    foldCase first ≠ foldCase (first ++ "." ++ middle) := by
  intro same
  have lengths := congrArg (fun s => s.toList.length) same
  simp [toList_foldCase] at lengths

theorem exists_confused (dotted : ¬ (Undotted keyspace ∧ Undotted name)) :
    ∃ keyspace' name', key keyspace' name' = key keyspace name ∧
      foldCase keyspace' ≠ foldCase keyspace := by
  rcases not_and_or.mp dotted with dotted | dotted
  · obtain ⟨first, middle, rfl⟩ := exists_append_of_dotted dotted
    exact ⟨first, middle ++ "." ++ name, (key_shift _ _ _).symm, foldCase_ne_append _ _⟩
  · obtain ⟨middle, last, rfl⟩ := exists_append_of_dotted dotted
    exact ⟨keyspace ++ "." ++ middle, last, key_shift _ _ _, (foldCase_ne_append _ _).symm⟩

end Keys

namespace Registration

def type (c : Registration) : UserType := ⟨some ⟨some c.keyspace, c.name⟩, c.fields⟩

def isUnder (c : Registration) (keyspace name : String) : Bool :=
  sameName c.keyspace keyspace && sameName c.name name

theorem isUnder_iff {c : Registration} {keyspace name : String} :
    c.isUnder keyspace name ↔
      foldCase c.keyspace = foldCase keyspace ∧ foldCase c.name = foldCase name := by
  simp [isUnder, sameName_iff]

end Registration

/-- The type that was registered last under this pair of names. -/
def latest (registrations : List Registration) (keyspace name : String) : Option UserType :=
  (registrations.reverse.find? (·.isUnder keyspace name)).map Registration.type

section Calls

variable {r : Registry} {registrations : List Registration} {keyspace name : String}

theorem registerAll_concat (registrations : List Registration) (c : Registration) :
    r.registerAll (registrations ++ [c]) =
      ((r.registerAll registrations).register c.keyspace c.name c.fields).2 := by
  simp [registerAll]

/-- Under a pair of names is found what was registered last under a pair with the same key. -/
theorem get?_registerAll (new : r.types = []) (registrations : List Registration)
    (keyspace name : String) :
    (r.registerAll registrations).get? keyspace name =
      (registrations.reverse.find? fun c => key c.keyspace c.name == key keyspace name).map
        Registration.type := by
  induction registrations using List.reverseRecOn with
  | nil => simp [registerAll, get?, Sorted.get?, new]
  | append_singleton registrations c ih =>
    rw [registerAll_concat, get?_register (keyed_registerAll (keyed_of_nil new)),
      List.reverse_concat, List.find?_cons, ih]
    by_cases same : key c.keyspace c.name = key keyspace name
    · simp [same, register, Registration.type]
    · rw [beq_false_of_ne same, if_neg same]

theorem mem_names_register (keyed : Keyed r) (fields : List (String × Ty)) {k : String} :
    k ∈ (r.register keyspace name fields).2.names ↔ k = key keyspace name ∨ k ∈ r.names := by
  have known (names : List String) : Sorted.contains compare k names ↔ k ∈ names := by
    simp [Sorted.contains_iff]
  have put := Sorted.contains_insert keyed.increasing (key keyspace name) k
  unfold names register
  rw [Sorted.keys_put, ← known, put, Bool.or_eq_true, known, beq_iff_eq, Std.compare_eq_iff_eq,
    eq_comm]

theorem mem_names_registerAll (new : r.types = []) {k : String} :
    k ∈ (r.registerAll registrations).names ↔
      k ∈ registrations.map fun c => key c.keyspace c.name := by
  induction registrations using List.reverseRecOn with
  | nil => simp [registerAll, names, new]
  | append_singleton registrations c ih =>
    rw [registerAll_concat, mem_names_register (keyed_registerAll (keyed_of_nil new)), ih]
    simp [or_comm]

theorem names_registerAll_sorted (new : r.types = []) :
    (r.registerAll registrations).names.Pairwise (· < ·) := by
  have keyed : Keyed (r.registerAll registrations) := keyed_registerAll (keyed_of_nil new)
  exact keyed.increasing.imp compareOfLessAndEq_eq_lt.mp

/-- There are as many types as keys under which a type was registered. -/
theorem size_registerAll (new : r.types = []) :
    (r.registerAll registrations).size =
      (registrations.map fun c => key c.keyspace c.name).dedup.length := by
  have nodup : (r.registerAll registrations).names.Nodup := by
    refine (names_registerAll_sorted new).imp ?_
    rintro k _ less rfl
    exact String.lt_irrefl k less
  have perm := (List.perm_ext_iff_of_nodup nodup (List.nodup_dedup _)).mpr fun k => by
    rw [mem_names_registerAll new, List.mem_dedup]
  rw [← perm.length_eq]
  simp [size, names]

theorem length_dedup_map_congr {α β γ : Type} [DecidableEq β] [DecidableEq γ] {f : α → β}
    {g : α → γ} {xs : List α} (same : ∀ x ∈ xs, ∀ y ∈ xs, f x = f y ↔ g x = g y) :
    (xs.map f).dedup.length = (xs.map g).dedup.length := by
  induction xs with
  | nil => rfl
  | cons x xs ih =>
    have rest := ih fun y hy z hz => same y (.tail x hy) z (.tail x hz)
    have member : f x ∈ xs.map f ↔ g x ∈ xs.map g := by
      simp only [List.mem_map]
      exact exists_congr fun y => and_congr_right fun hy => same y (.tail x hy) x (.head xs)
    rw [List.map_cons, List.map_cons]
    by_cases known : f x ∈ xs.map f
    · rw [List.dedup_cons_of_mem known, List.dedup_cons_of_mem (member.mp known), rest]
    · rw [List.dedup_cons_of_notMem known, List.dedup_cons_of_notMem (mt member.mpr known),
        List.length_cons, List.length_cons, rest]

end Calls

section Pairs

variable {r : Registry} {registrations : List Registration} {keyspace name : String} {u : UserType}

theorem exists_of_latest (h : latest registrations keyspace name = some u) :
    ∃ c : Registration, c.isUnder keyspace name ∧ c.type = u := by
  obtain ⟨c, found, rfl⟩ := Option.map_eq_some_iff.mp h
  exact ⟨c, (List.find?_some found :), rfl⟩

theorem exists_latest {c : Registration} (member : c ∈ registrations) :
    ∃ u, latest registrations c.keyspace c.name = some u := by
  have present : (registrations.reverse.find? (·.isUnder c.keyspace c.name)).isSome :=
    List.find?_isSome.mpr ⟨c, List.mem_reverse.mpr member, Registration.isUnder_iff.mpr ⟨rfl, rfl⟩⟩
  obtain ⟨d, found⟩ := Option.isSome_iff_exists.mp present
  exact ⟨d.type, Option.map_eq_some_iff.mpr ⟨d, found, rfl⟩⟩

theorem get?_registerAll_of_undotted (new : r.types = [])
    (undotted : ∀ c ∈ registrations, Undotted c.keyspace ∧ Undotted c.name)
    (keyspace name : String) :
    (r.registerAll registrations).get? keyspace name = latest registrations keyspace name := by
  rw [get?_registerAll new, latest]
  apply congrArg
  apply List.find?_congr
  intro c member
  obtain ⟨first, second⟩ := undotted c (List.mem_reverse.mp member)
  rw [Bool.eq_iff_iff, beq_iff_eq, Registration.isUnder_iff]
  exact key_eq_iff_of_undotted first second

/-- Were a point in a name that has been registered, another pair would be given the same type. -/
theorem undotted_of_get?_registerAll
    (answers : ∀ keyspace name,
      (r.registerAll registrations).get? keyspace name = latest registrations keyspace name)
    {c : Registration} (member : c ∈ registrations) : Undotted c.keyspace ∧ Undotted c.name := by
  by_contra dotted
  obtain ⟨keyspace, name, same, other⟩ := exists_confused dotted
  obtain ⟨u, own⟩ := exists_latest member
  have shared : latest registrations keyspace name = some u := by
    rw [← own, ← answers, ← answers, get?, get?, same]
  obtain ⟨d, under, rfl⟩ := exists_of_latest own
  obtain ⟨e, under', type⟩ := exists_of_latest shared
  have keyspaces : e.keyspace = d.keyspace := by
    have labels := congrArg UserType.label type
    simp_all [Registration.type]
  apply other
  rw [← (Registration.isUnder_iff.mp under').1, keyspaces, (Registration.isUnder_iff.mp under).1]

/-- A registry answers for every pair of a keyspace and a name, in any case, with the type that was
registered last under this pair, exactly if no name under which a type was registered has a point in
it. It then holds as many types as there are pairs; and in any case all its lookups agree, and the
texts under which it keeps its types are as many as these and in order. -/
theorem registerAll_answers_iff (new : r.types = []) (registrations : List Registration) :
    let held := r.registerAll registrations
    ((∀ keyspace name, held.get? keyspace name = latest registrations keyspace name) ↔
        ∀ c ∈ registrations, Undotted c.keyspace ∧ Undotted c.name) ∧
      ((∀ c ∈ registrations, Undotted c.keyspace ∧ Undotted c.name) →
        held.size =
          (registrations.map fun c => (foldCase c.keyspace, foldCase c.name)).dedup.length) ∧
      (∀ keyspace name, held.contains keyspace name = (held.get? keyspace name).isSome ∧
        held.resolve (some keyspace) name = (held.get? keyspace name).map UserType.ty) ∧
      held.names.Pairwise (· < ·) ∧ held.names.length = held.size := by
  intro held
  refine ⟨⟨fun answers c => undotted_of_get?_registerAll answers, ?_⟩, ?_, ?_, ?_, ?_⟩
  · exact get?_registerAll_of_undotted new
  · intro undotted
    rw [size_registerAll new]
    apply length_dedup_map_congr
    intro c member d _
    rw [key_eq_iff_of_undotted (undotted c member).1 (undotted c member).2, Prod.mk.injEq]
  · exact fun keyspace name => ⟨rfl, rfl⟩
  · exact names_registerAll_sorted new
  · exact List.length_map _

theorem registerAll_answers_iff_replaced :
    let registrations : List Registration :=
      [⟨"shop", "address", [("street", .scalar .text)]⟩, ⟨"depot", "address", []⟩,
        ⟨"Shop", "Address", [("zip", .scalar .int)]⟩]
    let held := (forKeyspace "depot").registerAll registrations
    held.get? "SHOP" "address" =
        some ⟨some ⟨some "Shop", "Address"⟩, [("zip", .scalar .int)]⟩ ∧
      held.get? "shop" "depot.address" = none ∧ held.size = 2 ∧
      held.names.Pairwise (· < ·) := by
  intro registrations held
  have undotted : ∀ c ∈ registrations, Undotted c.keyspace ∧ Undotted c.name := by decide
  obtain ⟨answers, size, -, sorted, -⟩ :=
    registerAll_answers_iff (r := forKeyspace "depot") rfl registrations
  refine ⟨?_, ?_, ?_, sorted⟩
  · rw [answers.mpr undotted]
    decide +kernel
  · rw [answers.mpr undotted]
    decide +kernel
  · rw [size undotted]
    decide +kernel

/-- A type is found under a pair of names under which none was registered; and of two types whose
pairs of names have the same text, the later one takes the place of the earlier one. -/
theorem get?_registerAll_confused :
    let first : Registration := ⟨"a.b", "c", [("x", .scalar .int)]⟩
    let second : Registration := ⟨"a", "b.c", [("y", .scalar .text)]⟩
    (empty.registerAll [first]).get? "a" "b.c" = some first.type ∧ latest [first] "a" "b.c" = none ∧
      (empty.registerAll [first, second]).get? "a.b" "c" = some second.type ∧
      (empty.registerAll [first, second]).size = 1 ∧
      ¬ ∀ registrations keyspace name, (empty.registerAll registrations).get? keyspace name =
        latest registrations keyspace name := by
  intro first second
  have found : (empty.registerAll [first]).get? "a" "b.c" = some first.type := by decide +kernel
  have unknown : latest [first] "a" "b.c" = none := by decide +kernel
  refine ⟨found, unknown, by decide +kernel, by decide +kernel, ?_⟩
  intro answers
  have same := answers [first] "a" "b.c"
  rw [found, unknown] at same
  exact Option.some_ne_none _ same

end Pairs

end Registry

end Cql
