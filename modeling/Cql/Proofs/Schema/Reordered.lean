import Cql.Proofs.Schema.Keyspace

namespace Cql

namespace Keyspace

variable {keyspace : String} {r r' s : Registry} {d : UserTypeDecl} {ds es : List UserTypeDecl}
  {u : UserType} {us vs : List UserType}

theorem holds_of_declareTypes (keyed : r.Keyed) (h : declareTypes keyspace r ds = .ok (us, r')) :
    r'.Keyed ∧ r.Extends r' ∧ List.Forall₂ (Holds keyspace r') ds us := by
  induction ds generalizing r us with
  | nil =>
    obtain ⟨rfl, rfl⟩ : [] = us ∧ r = r' := by simpa [declareTypes] using h
    exact ⟨keyed, .refl r, .nil⟩
  | cons d ds ih =>
    obtain ⟨u, t, vs, first, rest, rfl⟩ := declareTypes_cons_eq_ok_iff.mp h
    obtain ⟨keyed', more, here⟩ := holds_of_declareType keyed first
    obtain ⟨keyed'', still, all⟩ := ih keyed' rest
    exact ⟨keyed'', more.trans still, .cons (here.extend still) all⟩

/-- What is declared next is what a registry that knows more already holds. -/
theorem extends_of_declareType (keyed : r.Keyed) (h : declareType keyspace r d = .ok (u, r'))
    (more : r.Extends s) {v : UserType} (holds : Holds keyspace s d v) : r'.Extends s := by
  obtain ⟨-, fields, read, rfl, rfl⟩ := declareType_eq_ok_iff.mp h
  obtain ⟨label, found, read'⟩ := holds
  -- Both registries read the same fields, so what is stored is what the other one holds already.
  obtain rfl : fields = v.fields := (read.extend more).unique read'
  refine ⟨more.defaultKeyspace, fun {keyspace' name' w} known => ?_⟩
  rw [Registry.get?_register keyed] at known
  split at known
  · rename_i same
    obtain rfl := Option.some.inj known
    unfold Registry.get? at *
    rw [← same, found, Registry.register, ← label]
  · exact more.known known

theorem extends_of_declareTypes (keyed : r.Keyed) (h : declareTypes keyspace r ds = .ok (us, r'))
    (more : r.Extends s) (holds : ∀ d ∈ ds, ∃ v, Holds keyspace s d v) : r'.Extends s := by
  induction ds generalizing r us with
  | nil =>
    obtain ⟨-, rfl⟩ : [] = us ∧ r = r' := by simpa [declareTypes] using h
    exact more
  | cons d ds ih =>
    obtain ⟨u, t, vs, first, rest, rfl⟩ := declareTypes_cons_eq_ok_iff.mp h
    obtain ⟨⟨v, here⟩, others⟩ := List.forall_mem_cons.mp holds
    obtain ⟨keyed', -, -⟩ := holds_of_declareType keyed first
    exact ih keyed' rest (extends_of_declareType keyed first more here) others

theorem extends_of_perm (keyed : r.Keyed) (perm : ds.Perm es)
    (h : declareTypes keyspace r ds = .ok (us, r'))
    (h' : declareTypes keyspace r es = .ok (vs, s)) : r'.Extends s := by
  obtain ⟨-, more, all⟩ := holds_of_declareTypes keyed h'
  refine extends_of_declareTypes keyed h more fun d hd => ?_
  obtain ⟨v, -, holds⟩ := exists_of_forall₂ all.flip (perm.subset hd)
  exact ⟨v, holds⟩

/-- Two orders in which the same types can be declared end with the same registry. -/
theorem registry_eq_of_perm (keyed : r.Keyed) (perm : ds.Perm es)
    (h : declareTypes keyspace r ds = .ok (us, r'))
    (h' : declareTypes keyspace r es = .ok (vs, s)) : r' = s :=
  Registry.eq_of_extends (holds_of_declareTypes keyed h).1 (holds_of_declareTypes keyed h').1
    (extends_of_perm keyed perm h h') (extends_of_perm keyed perm.symm h' h)

/-- The order in which user types are declared does not matter for what is declared: from two
declarations of a keyspace that differ in this order alone, if both can be built, come keyspaces
that know the same user types by the same names, and have the same tables, functions and
aggregates. -/
theorem ofDecl_perm {d : KeyspaceDecl} {types : List UserTypeDecl} {k k' : Keyspace}
    (perm : d.types.Perm types) (built : ofDecl d = .ok k)
    (built' : ofDecl { d with types } = .ok k') :
    (∀ keyspace name, k.registry.get? keyspace name = k'.registry.get? keyspace name) ∧
      k.tables = k'.tables ∧ k.functions = k'.functions ∧ k.aggregates = k'.aggregates := by
  obtain ⟨declared, tables, functions, aggregates, -⟩ := ofDecl_eq_ok_iff.mp built
  obtain ⟨declared', tables', functions', aggregates', -⟩ := ofDecl_eq_ok_iff.mp built'
  have registry : k.registry = k'.registry :=
    registry_eq_of_perm (Registry.keyed_of_nil rfl) perm declared declared'
  rw [← registry] at tables' functions' aggregates'
  have sameFunctions := Except.ok.inj (functions.symm.trans functions')
  rw [← sameFunctions] at aggregates'
  refine ⟨fun keyspace name => by rw [registry], ?_, sameFunctions, ?_⟩
  · exact Except.ok.inj (tables.symm.trans tables')
  · exact Except.ok.inj (aggregates.symm.trans aggregates')

theorem ofDecl_perm_shop :
    let item : UserTypeDecl := ⟨"item", [⟨"price", "double"⟩]⟩
    let person : UserTypeDecl := ⟨"person", [⟨"name", "text"⟩]⟩
    let order : UserTypeDecl := ⟨"order", [⟨"by", "person"⟩, ⟨"items", "list<frozen<item>>"⟩]⟩
    let d : KeyspaceDecl :=
      { name := "shop"
        types := [item, person, order]
        tables := []
        functions := [⟨"total", [⟨"all", "set<frozen<order>>"⟩], "double", none, none, false⟩]
        aggregates := [] }
    let types := [person, item, order]
    ∃ k k', d.types.Perm types ∧ ofDecl d = .ok k ∧ ofDecl { d with types } = .ok k' ∧
      (∀ keyspace name, k.registry.get? keyspace name = k'.registry.get? keyspace name) ∧
        k.tables = k'.tables ∧ k.functions = k'.functions ∧ k.aggregates = k'.aggregates := by
  intro item person order d types
  have perm : d.types.Perm types := .swap _ _ _
  have built : ∃ k, ofDecl d = .ok k := by
    subst d item person order
    exact ⟨_, rfl⟩
  have built' : ∃ k', ofDecl { d with types } = .ok k' := by
    subst types d item person order
    exact ⟨_, rfl⟩
  obtain ⟨k, built⟩ := built
  obtain ⟨k', built'⟩ := built'
  exact ⟨k, k', perm, built, built', ofDecl_perm perm built built'⟩

end Keyspace

end Cql
