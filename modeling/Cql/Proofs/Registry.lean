import Cql.Registry
import Cql.Proofs.Sorted.Search
import Cql.Proofs.Ty.Resolve

namespace Cql

namespace Registry

structure Registration where
  keyspace : String
  name : String
  fields : List (String × Ty)

def registerAll (r : Registry) (registrations : List Registration) : Registry :=
  registrations.foldl (fun r c => (r.register c.keyspace c.name c.fields).2) r

/-- Types stand in the order of their keys, each under the key of its own name. -/
structure Keyed (r : Registry) : Prop where
  increasing : Sorted.Increasing compare (r.types.map (·.1))
  named : ∀ e ∈ r.types, ∃ keyspace name, e.2.label = some ⟨some keyspace, name⟩ ∧
    e.1 = key keyspace name

variable {r : Registry}

theorem keyed_of_nil (h : r.types = []) : Keyed r := by
  constructor
  · rw [h]
    exact List.Pairwise.nil
  · rw [h]
    exact fun e he => absurd he List.not_mem_nil

section Register

variable (keyspace name : String) (fields : List (String × Ty))

theorem mem_register {e : String × UserType} (h : e ∈ (r.register keyspace name fields).2.types) :
    e ∈ r.types ∨ e = (key keyspace name, (r.register keyspace name fields).1) := by
  obtain ⟨k, u⟩ := e
  rcases Sorted.mem_of_mem_put h with h | ⟨rfl, rfl | ⟨equal, -⟩⟩
  · exact .inl h
  · exact .inr rfl
  · obtain rfl : k = key keyspace name := Std.LawfulEqOrd.eq_of_compare equal
    exact .inr rfl

theorem keyed_register (keyed : Keyed r) : Keyed (r.register keyspace name fields).2 := by
  constructor
  · exact Sorted.increasing_put keyed.increasing _ _
  · intro e he
    rcases mem_register keyspace name fields he with he | rfl
    · exact keyed.named e he
    · exact ⟨keyspace, name, rfl, rfl⟩

end Register

section RegisterAll

variable {registrations : List Registration}

theorem keyed_registerAll (keyed : Keyed r) : Keyed (r.registerAll registrations) := by
  induction registrations generalizing r with
  | nil => exact keyed
  | cons c registrations ih => exact ih (keyed_register c.keyspace c.name c.fields keyed)

theorem mem_registerAll {e : String × UserType} (h : e ∈ (r.registerAll registrations).types) :
    e ∈ r.types ∨ ∃ c ∈ registrations, e.2 = ⟨some ⟨some c.keyspace, c.name⟩, c.fields⟩ := by
  induction registrations generalizing r with
  | nil => exact .inl h
  | cons c registrations ih =>
    rcases ih h with h | ⟨d, hd, same⟩
    · rcases mem_register c.keyspace c.name c.fields h with h | rfl
      · exact .inl h
      · exact .inr ⟨c, List.mem_cons_self, rfl⟩
    · exact .inr ⟨d, List.mem_cons_of_mem c hd, same⟩

end RegisterAll

/-- A type in the registry is what its own name resolves to. -/
theorem resolve_of_mem (keyed : Keyed r) {e : String × UserType} (h : e ∈ r.types)
    {keyspace name : String} (label : e.2.label = some ⟨some keyspace, name⟩) :
    r.resolve (some keyspace) name = some e.2.ty := by
  obtain ⟨keyspace', name', label', stored⟩ := keyed.named e h
  rw [label] at label'
  obtain ⟨rfl, rfl⟩ : keyspace = keyspace' ∧ name = name' := by simpa using label'
  have equal : compare e.1 (key keyspace name) = .eq := by
    rw [stored]
    exact Std.ReflCmp.compare_self
  have found := Sorted.get?_of_mem keyed.increasing h equal
  unfold resolve get?
  simp [found]

/-- Every type in a registry that was empty at first has been registered, and is found under the
names with which this was done. -/
theorem exists_registration (new : r.types = []) {registrations : List Registration}
    {e : String × UserType} (h : e ∈ (r.registerAll registrations).types) :
    ∃ c ∈ registrations, e.2.label = some ⟨some c.keyspace, c.name⟩ ∧
      (r.registerAll registrations).resolve (some c.keyspace) c.name = some e.2.ty := by
  rcases mem_registerAll h with old | ⟨c, hc, same⟩
  · rw [new] at old
    exact absurd old List.not_mem_nil
  · have label : e.2.label = some ⟨some c.keyspace, c.name⟩ := by rw [same]
    exact ⟨c, hc, label, resolve_of_mem (keyed_registerAll (keyed_of_nil new)) h label⟩

section Lookup

variable {keyspace name : String} {u : UserType}

theorem get?_eq_some_iff (keyed : Keyed r) :
    r.get? keyspace name = some u ↔ (key keyspace name, u) ∈ r.types := by
  constructor
  · intro found
    obtain ⟨⟨k, v⟩, he, equal, rfl⟩ := Sorted.exists_mem_of_get? found
    obtain rfl : k = key keyspace name := Std.LawfulEqOrd.eq_of_compare equal
    exact he
  · intro he
    exact Sorted.get?_of_mem keyed.increasing he Std.ReflCmp.compare_self

/-- Under the name with which a type is registered is this type, under all others what there was. -/
theorem get?_register (keyed : Keyed r) (keyspace name : String) (fields : List (String × Ty))
    (keyspace' name' : String) :
    (r.register keyspace name fields).2.get? keyspace' name' =
      if key keyspace name = key keyspace' name' then
        some (r.register keyspace name fields).1
      else r.get? keyspace' name' := by
  have found := Sorted.get?_put keyed.increasing (key keyspace name) (key keyspace' name')
    (r.register keyspace name fields).1
  simp only [Std.compare_eq_iff_eq] at found
  exact found

theorem resolve_eq_some_iff {stated : Option String} {t : Ty} :
    r.resolve stated name = some t ↔
      ∃ keyspace u, stated.or r.defaultKeyspace = some keyspace ∧ r.get? keyspace name = some u ∧
        u.ty = t := by
  simp [resolve, Option.bind_eq_some_iff]

theorem parse_eq_ok_iff {input : String} {t : Ty} :
    r.parse input = .ok t ↔ Ty.parseWith r.resolve input = .ok t := by
  unfold parse
  split <;> simp_all

end Lookup

section Extends

variable {r' : Registry}

structure Extends (r r' : Registry) : Prop where
  defaultKeyspace : r.defaultKeyspace = r'.defaultKeyspace
  known : ∀ {keyspace name u}, r.get? keyspace name = some u → r'.get? keyspace name = some u

theorem Extends.refl (r : Registry) : Extends r r := ⟨rfl, id⟩

theorem Extends.trans {r'' : Registry} (first : Extends r r') (second : Extends r' r'') :
    Extends r r'' :=
  ⟨first.defaultKeyspace.trans second.defaultKeyspace, fun h => second.known (first.known h)⟩

theorem extends_register (keyed : Keyed r) {keyspace name : String}
    (new : r.get? keyspace name = none) (fields : List (String × Ty)) :
    Extends r (r.register keyspace name fields).2 := by
  refine ⟨rfl, fun {keyspace' name' u} known => ?_⟩
  rw [get?_register keyed]
  split
  · rename_i same
    unfold get? at *
    rw [← same, new] at known
    contradiction
  · exact known

/-- What is read from a text is read with a registry that knows more, too. -/
theorem Extends.parse (more : Extends r r') {input : String} {t : Ty}
    (h : r.parse input = .ok t) : r'.parse input = .ok t := by
  apply parse_eq_ok_iff.mpr
  refine (Ty.parseWith_of_given (P := fun _ => True) ?_ (parse_eq_ok_iff.mp h)).1
  intro stated name t found
  obtain ⟨keyspace, u, place, known, rfl⟩ := resolve_eq_some_iff.mp found
  refine ⟨resolve_eq_some_iff.mpr ⟨keyspace, u, ?_, more.known known, rfl⟩, fun _ _ _ => trivial⟩
  rw [← more.defaultKeyspace]
  exact place

theorem mem_of_extends (more : Extends r r') (keyed : Keyed r) (keyed' : Keyed r')
    {e : String × UserType} (he : e ∈ r.types) : e ∈ r'.types := by
  obtain ⟨k, u⟩ := e
  obtain ⟨keyspace, name, -, rfl⟩ := keyed.named _ he
  exact (get?_eq_some_iff keyed').mp (more.known ((get?_eq_some_iff keyed).mpr he))

/-- Registries that know the same types are the same. -/
theorem eq_of_extends (keyed : Keyed r) (keyed' : Keyed r') (more : Extends r r')
    (less : Extends r' r) : r = r' := by
  have types : List.Forall₂ Eq r.types r'.types := by
    apply Sorted.forall₂_of_partners _ keyed.increasing keyed'.increasing
    · exact fun e he => ⟨e, mem_of_extends more keyed keyed' he, rfl⟩
    · exact fun e he => ⟨e, mem_of_extends less keyed' keyed he, rfl⟩
    · rintro x _ rfl
      exact Std.ReflCmp.compare_self
  rw [List.forall₂_eq_eq_eq] at types
  have place := more.defaultKeyspace
  cases r
  cases r'
  simp_all

end Extends

end Registry

end Cql
