import Cql.Proofs.Schema.Keyspace
import Cql.Proofs.Schema.Reported

/-!
Whether what is declared in a schema is found again under its own name. Keyspaces and user types
always are, as a second one of a name is refused. A second table, function or aggregate of a
keyspace or column of a table is not refused, and stays behind the first one, which is found in its
place.
-/

namespace Cql

/-- Every item is found under its key, and no item before it has this key. -/
def FindsEach {α κ : Type} (lookup : κ → Option α) (key : α → κ) (items : List α) : Prop :=
  ∀ (i : Nat) (x : α), items[i]? = some x →
    lookup (key x) = some x ∧ key x ∉ (items.take i).map key

section Lookups

variable {α κ : Type} {lookup : κ → Option α} {key : α → κ} {items : List α}

theorem FindsEach.nodup (h : FindsEach lookup key items) : (items.map key).Nodup := by
  rw [List.nodup_iff_getElem?_ne_getElem?]
  intro i j less bound same
  rw [List.length_map] at bound
  obtain ⟨-, new⟩ := h j items[j] (List.getElem?_eq_getElem bound)
  rw [List.map_take] at new
  refine new (List.mem_of_getElem? (i := i) ?_)
  rw [List.getElem?_take_of_lt less, same, List.getElem?_map, List.getElem?_eq_getElem bound]
  rfl

theorem findsEach_of_nodup (once : (items.map key).Nodup)
    (found : ∀ x ∈ items, lookup (key x) = some x) : FindsEach lookup key items := by
  intro i x here
  refine ⟨found x (List.mem_of_getElem? here), fun before => ?_⟩
  obtain ⟨bound, rfl⟩ := List.getElem?_eq_some_iff.mp here
  rw [← List.take_append_drop i items, List.map_append] at once
  refine (List.nodup_append.mp once).2.2 _ before _ ?_ rfl
  exact List.mem_map_of_mem (List.mem_drop_iff_getElem.mpr ⟨0, by simpa using bound, by simp⟩)

theorem findsEach_find?_iff {key : α → String} :
    FindsEach (fun name => items.find? (key · == name)) key items ↔ (items.map key).Nodup :=
  ⟨FindsEach.nodup, fun once => findsEach_of_nodup once fun _ => Table.find?_of_nodup once⟩

theorem nodup_map_concat {x : α} (once : (items.map key).Nodup) (new : key x ∉ items.map key) :
    ((items ++ [x]).map key).Nodup := by
  rw [List.map_append, List.map_singleton, ← List.concat_eq_append]
  exact once.concat new

theorem map_eq_of_forall₂ {β : Type} {R : β → α → Prop} {xs : List β} {other : β → κ}
    (made : List.Forall₂ R xs items) (same : ∀ x y, R x y → key y = other x) :
    items.map key = xs.map other := by
  induction made with
  | nil => rfl
  | cons first _ ih => rw [List.map_cons, List.map_cons, same _ _ first, ih]

end Lookups

def UserType.name? (u : UserType) : Option String := u.label.map (·.name)

/-- All that a keyspace lists is found under its own name or signature. -/
structure Keyspace.FindsAll (k : Keyspace) : Prop where
  userTypes : FindsEach (·.bind k.userType?) UserType.name? k.userTypes
  tables : FindsEach k.table? Table.name k.tables
  columns : ∀ t ∈ k.tables, FindsEach t.column? Column.name t.columns
  functions : FindsEach k.function? Function.signature k.functions
  aggregates : FindsEach k.aggregate? Aggregate.signature k.aggregates

structure Schema.FindsAll (s : Schema) : Prop where
  keyspaces : FindsEach s.keyspace? Keyspace.name s.keyspaces
  within : ∀ k ∈ s.keyspaces, k.FindsAll

namespace Table

variable {d : TableDecl} {r : Registry} {t : Table}

theorem name_of_ofDecl (h : ofDecl d r = .ok t) : t.name = d.name := by
  unfold ofDecl at h
  obtain ⟨places, -, left⟩ := bind_eq_ok_iff.mp h
  obtain ⟨columns, -, done⟩ := bind_eq_ok_iff.mp left
  obtain rfl := Except.ok.inj done
  rfl

theorem names_of_ofDecl (h : ofDecl d r = .ok t) :
    t.columns.map (·.name) = d.columns.map (·.name) := by
  have names (e : ColumnDecl × Nat) (c : Column)
      (made : columnOf d r t.partitionPlaces e.1 e.2 = .ok c) : c.name = e.1.name := by
    obtain ⟨type, -, rfl⟩ := exists_of_columnOf made
    rfl
  calc t.columns.map (·.name)
      _ = d.columns.zipIdx.map (·.1.name) := map_eq_of_forall₂ (made_of_ofDecl h).columns names
      _ = (d.columns.zipIdx.map Prod.fst).map (·.name) := List.map_map.symm
      _ = d.columns.map (·.name) := by rw [List.zipIdx_map_fst]

end Table

namespace Keyspace

section UserTypes

variable {keyspace : String} {r r' : Registry} {u : UserType} {us vs : List UserType}
  {d : UserTypeDecl} {ds : List UserTypeDecl}

theorem Declared.nodup_step (declared : Declared keyspace us r)
    (once : (us.map UserType.name?).Nodup) (h : declareType keyspace r d = .ok (u, r')) :
    ((us ++ [u]).map UserType.name?).Nodup := by
  obtain ⟨new, fields, -, rfl, -⟩ := declareType_eq_ok_iff.mp h
  refine nodup_map_concat once fun before => ?_
  obtain ⟨v, member, same⟩ := List.mem_map.mp before
  obtain ⟨name, label, held⟩ := declared.held v member
  obtain rfl : name = d.name := by simpa [UserType.name?, label] using same
  rw [new] at held
  contradiction

theorem Declared.nodup_run (declared : Declared keyspace us r)
    (once : (us.map UserType.name?).Nodup) (h : declareTypes keyspace r ds = .ok (vs, r')) :
    ((us ++ vs).map UserType.name?).Nodup := by
  induction ds generalizing us vs r with
  | nil =>
    obtain ⟨rfl, -⟩ : [] = vs ∧ r = r' := by simpa [declareTypes] using h
    rwa [List.append_nil]
  | cons d ds ih =>
    obtain ⟨u, s, ws, first, rest, rfl⟩ := declareTypes_cons_eq_ok_iff.mp h
    rw [List.append_cons]
    exact ih (declared.step first) (declared.nodup_step once first) rest

end UserTypes

variable {d : KeyspaceDecl} {k : Keyspace}

theorem findsEach_userTypes (built : ofDecl d = .ok k) :
    FindsEach (·.bind k.userType?) UserType.name? k.userTypes := by
  obtain ⟨declared, -, -, -, same⟩ := ofDecl_eq_ok_iff.mp built
  refine findsEach_of_nodup ((Declared.empty d.name).nodup_run List.nodup_nil declared) ?_
  intro u member
  obtain ⟨name, label, held⟩ := (declared_of_ofDecl built).held u member
  rw [UserType.name?, label]
  exact held

/-- Nothing but the names of its tables and their columns and the signatures of its functions and
aggregates decides whether all of a keyspace is found. -/
theorem findsAll_iff (built : ofDecl d = .ok k) :
    k.FindsAll ↔ ((d.tables.map (·.name)).Nodup ∧ ∀ t ∈ d.tables, (t.columns.map (·.name)).Nodup) ∧
      (k.functions.map Function.signature).Nodup ∧
        (k.aggregates.map Aggregate.signature).Nodup := by
  obtain ⟨-, made, -⟩ := ofDecl_eq_ok_iff.mp built
  have tables := mapM_eq_ok_iff.mp made
  have names : k.tables.map (·.name) = d.tables.map (·.name) :=
    map_eq_of_forall₂ tables fun _ _ => Table.name_of_ofDecl
  have columns : k.tables.map (·.columns.map (·.name)) = d.tables.map (·.columns.map (·.name)) :=
    map_eq_of_forall₂ tables fun _ _ => Table.names_of_ofDecl
  have distinct : (∀ t ∈ k.tables, (t.columns.map (·.name)).Nodup) ↔
      ∀ t ∈ d.tables, (t.columns.map (·.name)).Nodup := by
    rw [← List.forall_mem_map (f := fun t : Table => t.columns.map (·.name)) (P := List.Nodup),
      columns, List.forall_mem_map]
  rw [← names, ← distinct]
  constructor
  · rintro ⟨-, tables, columns, functions, aggregates⟩
    exact ⟨⟨tables.nodup, fun t member => (columns t member).nodup⟩, functions.nodup,
      aggregates.nodup⟩
  · rintro ⟨⟨tables, columns⟩, functions, aggregates⟩
    exact ⟨findsEach_userTypes built, findsEach_find?_iff.mpr tables,
      fun t member => findsEach_find?_iff.mpr (columns t member),
      findsEach_find?_iff.mpr functions, findsEach_find?_iff.mpr aggregates⟩

end Keyspace

namespace Schema

variable {d : SchemaDecl} {s : Schema} {built ks : List Keyspace} {ds : List KeyspaceDecl}

theorem declare_spec (h : declare built ds = .ok ks) :
    (∃ new, ks = built ++ new ∧ List.Forall₂ (fun d k => Keyspace.ofDecl d = .ok k) ds new) ∧
      ((built.map (·.name)).Nodup → (ks.map (·.name)).Nodup) := by
  induction ds generalizing built with
  | nil =>
    obtain rfl := Except.ok.inj h
    exact ⟨⟨[], (List.append_nil _).symm, .nil⟩, id⟩
  | cons d ds ih =>
    rw [declare] at h
    split at h
    · contradiction
    · rename_i free
      obtain ⟨k, first, rest⟩ := bind_eq_ok_iff.mp h
      obtain ⟨⟨new, rfl, made⟩, distinct⟩ := ih rest
      refine ⟨⟨k :: new, (List.append_cons built k new).symm, .cons first made⟩, fun once => ?_⟩
      obtain ⟨-, -, -, -, name⟩ := Keyspace.ofDecl_eq_ok_iff.mp first
      refine distinct (nodup_map_concat once fun before => ?_)
      obtain ⟨l, member, same⟩ := List.mem_map.mp before
      exact free (List.any_eq_true.mpr ⟨l, member, by simp [same, name]⟩)

/-- In a schema that has been built every keyspace is found under its name, and every user type in
its keyspace. The rest is found exactly if no keyspace declares two tables of one name, no table two
columns of one name, and no keyspace has two functions or two aggregates of one signature: nothing
refuses these, and each hides those of its name after it. -/
theorem ofDecl_findsAll_iff (made : ofDecl d = .ok s) :
    FindsEach s.keyspace? Keyspace.name s.keyspaces ∧
      (∀ k ∈ s.keyspaces, FindsEach (·.bind k.userType?) UserType.name? k.userTypes) ∧
        (s.FindsAll ↔
          (∀ k ∈ d.keyspaces, (k.tables.map (·.name)).Nodup ∧
            ∀ t ∈ k.tables, (t.columns.map (·.name)).Nodup) ∧
          ∀ k ∈ s.keyspaces, (k.functions.map Function.signature).Nodup ∧
            (k.aggregates.map Aggregate.signature).Nodup) := by
  obtain ⟨ks, declared, rfl⟩ := map_eq_ok_iff.mp made
  obtain ⟨⟨new, rfl, built⟩, distinct⟩ := declare_spec declared
  have keyspaces := findsEach_find?_iff.mpr (distinct List.nodup_nil)
  refine ⟨keyspaces, fun k member => ?_, ?_⟩
  · obtain ⟨decl, -, one⟩ := exists_of_forall₂ built member
    exact Keyspace.findsEach_userTypes one
  · constructor
    · rintro ⟨-, within⟩
      constructor
      · intro decl member
        obtain ⟨k, member, one⟩ := exists_of_forall₂ built.flip member
        exact ((Keyspace.findsAll_iff one).mp (within k member)).1
      · intro k member
        obtain ⟨decl, -, one⟩ := exists_of_forall₂ built member
        exact ((Keyspace.findsAll_iff one).mp (within k member)).2
    · rintro ⟨names, signatures⟩
      refine ⟨keyspaces, fun k member => ?_⟩
      obtain ⟨decl, declared, one⟩ := exists_of_forall₂ built member
      exact (Keyspace.findsAll_iff one).mpr ⟨names decl declared, signatures k member⟩

theorem ofDecl_findsAll_iff_distinct :
    let t : TableDecl :=
      { name := "t", columns := [⟨"a", "int", false, none⟩, ⟨"A", "int", false, none⟩]
        partitionKey := ["a"], clusteringKey := [], options := none }
    let f (argument : String) : FunctionDecl :=
      ⟨"f", [⟨"x", argument⟩], "int", none, none, false⟩
    let d : SchemaDecl :=
      ⟨[{ name := "k", types := [⟨"u", []⟩], tables := [t], functions := [f "int", f "u"]
          aggregates := [] },
        { name := "K", types := [⟨"u", []⟩], tables := [t], functions := [], aggregates := [] }]⟩
    ∃ s, ofDecl d = .ok s ∧ s.keyspaces.length = 2 ∧ s.FindsAll := by
  intro t f d
  have made : ∃ s, ofDecl d = .ok s ∧ s.keyspaces.length = 2 ∧
      ∀ k ∈ s.keyspaces, (k.functions.map Function.signature).Nodup ∧
        (k.aggregates.map Aggregate.signature).Nodup := by
    subst d t f
    exact ⟨_, rfl, rfl, by decide +kernel⟩
  obtain ⟨s, made, two, signatures⟩ := made
  refine ⟨s, made, two, (ofDecl_findsAll_iff made).2.2.mpr ⟨?_, signatures⟩⟩
  subst d t
  decide

/-- A second column, table, function and aggregate of a name or signature, each of them refused
nowhere and found nowhere. -/
theorem ofDecl_second_hidden :
    let t (column type : String) : TableDecl :=
      { name := "t", columns := [⟨column, type, false, none⟩, ⟨"b", "int", false, none⟩]
        partitionKey := ["b"], clusteringKey := [], options := none }
    let f (argument body : String) : FunctionDecl :=
      ⟨"f", [⟨argument, "int"⟩, ⟨"x", "int"⟩], "int", none, some body, false⟩
    let g : FunctionDecl := ⟨"g", [⟨"x", "int"⟩], "text", none, none, false⟩
    let a (final : Option String) : AggregateDecl := ⟨"a", ["int"], "f", "int", final, none⟩
    let d : SchemaDecl :=
      ⟨[{ name := "k", types := []
          tables := [t "a" "int", t "b" "text"]
          functions := [f "sum" "sum + x", f "state" "x", g]
          aggregates := [a none, a (some "g")] }]⟩
    ∃ k, ofDecl d = .ok ⟨[k]⟩ ∧ ¬ (∀ t ∈ k.tables, k.table? t.name = some t) ∧
      ¬ (∀ t ∈ k.tables, ∀ c ∈ t.columns, t.column? c.name = some c) ∧
        ¬ (∀ f ∈ k.functions, k.function? f.signature = some f) ∧
          ¬ ∀ a ∈ k.aggregates, k.aggregate? a.signature = some a := by
  intro t f g a d
  subst d t f g a
  refine ⟨_, rfl, ?_, ?_, ?_, ?_⟩ <;> intro found
  · have names := fun t member => congrArg (Option.map (·.columns.map (·.name))) (found t member)
    exact absurd names (by decide +kernel)
  · have types := fun t member c inner =>
      congrArg (Option.map (·.type.map Ty.text)) (found t member c inner)
    exact absurd types (by decide +kernel)
  · have bodies := fun f member => congrArg (Option.map (·.body)) (found f member)
    exact absurd bodies (by decide +kernel)
  · have results := fun a member => congrArg (Option.map (·.returns.text)) (found a member)
    exact absurd results (by decide +kernel)

end Schema

end Cql
