import Cql.Proofs.Schema.Reported
import Mathlib.Data.List.NodupEquivFin

/-!
Whether the keys of a table agree with its columns. From metadata they always do, as the keys are
made of the roles. A key that is declared holds the place of the first column of each of its names,
while the role of a column is found by its place for the one key and by its name, as the order is,
for the other. Nothing refuses names that come twice, and with these the two disagree.
-/

namespace Cql

section Lists

variable {α β γ δ : Type}

theorem count_le_one_iff {xs : List String} {x : String} :
    xs.count x ≤ 1 ↔ ∀ i j : Nat, xs[i]? = some x → xs[j]? = some x → i = j := by
  rw [← not_iff_not, not_le, Nat.lt_iff_add_one_le, ← List.duplicate_iff_two_le_count,
    List.duplicate_iff_exists_distinct_get]
  constructor
  · rintro ⟨i, j, less, first, second⟩ same
    have here : xs[i.val]? = some x := by simp [first]
    have there : xs[j.val]? = some x := by simp [second]
    exact absurd (same i j here there) (Nat.ne_of_lt less)
  · intro differ
    simp only [not_forall] at differ
    obtain ⟨i, j, here, there, other⟩ := differ
    obtain ⟨hi, first⟩ := List.getElem?_eq_some_iff.mp here
    obtain ⟨hj, second⟩ := List.getElem?_eq_some_iff.mp there
    rcases Nat.lt_or_gt_of_ne other with less | less
    · exact ⟨⟨i, hi⟩, ⟨j, hj⟩, less, first.symm, second.symm⟩
    · exact ⟨⟨j, hj⟩, ⟨i, hi⟩, less, second.symm, first.symm⟩

theorem map_filterMap_of_forall₂ {f : β → Option γ} {g : γ → δ} {h : α → δ} {xs : List α}
    {ys : List β} (found : List.Forall₂ (fun x y => ∃ z, f y = some z ∧ g z = h x) xs ys) :
    (ys.filterMap f).map g = xs.map h := by
  induction found with
  | nil => rfl
  | cons first _ ih =>
    obtain ⟨z, here, same⟩ := first
    rw [List.filterMap_cons_some here, List.map_cons, List.map_cons, same, ih]

end Lists

namespace Table

def orderOf (d : TableDecl) (name : String) : Direction :=
  ((d.clusteringKey.find? (·.name == name)).map (·.order)).getD .asc

/-- No column, told by its place, is in the primary key twice, and the roles tell which columns are
in which key. -/
structure RolesAgree (t : Table) : Prop where
  once : (t.partitionPlaces ++ t.clusteringPlaces).Nodup
  partition : ∀ (i : Nat) (c : Column), t.columns[i]? = some c →
    (c.role = .partitionKey ↔ i ∈ t.partitionPlaces)
  clustering : ∀ (i : Nat) (c : Column), t.columns[i]? = some c →
    (c.role = .clusteringKey ↔ i ∈ t.clusteringPlaces)

structure KeysAgree (d : TableDecl) (t : Table) : Prop extends RolesAgree t where
  order : t.clusteringOrder = d.clusteringKey.map (·.order)

section Reported

theorem name_role_of_ofMeta {m : ColumnMeta} {c : Column} (h : Column.ofMeta m = .ok c) :
    c.name = m.name ∧ c.role = m.role := by
  unfold Column.ofMeta at h
  obtain ⟨index, -, left⟩ := bind_eq_ok_iff.mp h
  obtain ⟨options, -, left⟩ := bind_eq_ok_iff.mp left
  obtain ⟨validator, -, left⟩ := bind_eq_ok_iff.mp left
  dsimp only at left
  split at left
  · obtain ⟨v, -, done⟩ := bind_eq_ok_iff.mp left
    obtain rfl := Except.ok.inj done
    exact ⟨rfl, rfl⟩
  · split at left
    · obtain ⟨order, -, left⟩ := bind_eq_ok_iff.mp left
      split at left
      · obtain rfl := Except.ok.inj left
        exact ⟨rfl, rfl⟩
      · contradiction
    · obtain rfl := Except.ok.inj left
      exact ⟨rfl, rfl⟩

theorem role_of_ofMeta {m : ColumnMeta} {c : Column} (h : Column.ofMeta m = .ok c) :
    c.role = m.role := (name_role_of_ofMeta h).2

theorem role_iff_mem_places {columns : List ColumnMeta} {made : List Column} {role : Role} {i : Nat}
    {c : Column} (columnOf : List.Forall₂ (fun x c => Column.ofMeta x = .ok c) columns made)
    (held : made[i]? = some c) : c.role = role ↔ i ∈ places role columns := by
  obtain ⟨x, reported, column⟩ := getElem?_of_forall₂ columnOf held
  rw [mem_places, reported, role_of_ofMeta column]
  simp

theorem made_of_ofMeta {m : TableMeta} {t : Table} (built : ofMeta m = .ok t) :
    List.Forall₂ (fun x c => Column.ofMeta x = .ok c) m.columns t.columns ∧
      t.partitionPlaces = places .partitionKey m.columns ∧
        t.clusteringPlaces = places .clusteringKey m.columns := by
  unfold ofMeta at built
  obtain ⟨columns, made, done⟩ := bind_eq_ok_iff.mp built
  obtain rfl := Except.ok.inj done
  exact ⟨(mapM_eq_ok_iff.mp made).imp fun _ _ column => inContext_eq_ok_iff.mp column, rfl, rfl⟩

theorem rolesAgree_of_ofMeta {m : TableMeta} {t : Table} (built : ofMeta m = .ok t) :
    RolesAgree t := by
  obtain ⟨columns, partition, clustering⟩ := made_of_ofMeta built
  refine ⟨?_, ?_, ?_⟩
  · rw [partition, clustering]
    refine List.nodup_append.mpr ⟨nodup_places, nodup_places, ?_⟩
    rintro i first j second rfl
    obtain ⟨x, here, own⟩ := mem_places.mp first
    obtain ⟨y, there, other⟩ := mem_places.mp second
    obtain rfl : x = y := Option.some.inj (here.symm.trans there)
    rw [own] at other
    contradiction
  · rw [partition]
    exact fun _ _ held => role_iff_mem_places columns held
  · rw [clustering]
    exact fun _ _ held => role_iff_mem_places columns held

end Reported

section Columns

variable {d : TableDecl} {r : Registry} {t : Table} {decl : ColumnDecl} {c : Column}
  {name : String} {i : Nat}

theorem Made.exists_column (made : Made d r t) (declared : d.columns[i]? = some decl) :
    ∃ c, t.columns[i]? = some c ∧ columnOf d r t.partitionPlaces decl i = .ok c := by
  obtain ⟨c, held⟩ : ∃ c, t.columns[i]? = some c := by
    rw [exists_getElem?_iff, made.length_columns, ← exists_getElem?_iff]
    exact ⟨decl, declared⟩
  exact ⟨c, held, made.columnOf_eq declared held⟩

theorem direction_of_columnOf {places : List Nat} (h : columnOf d r places decl i = .ok c) :
    c.name = decl.name ∧ c.direction = orderOf d decl.name := by
  obtain ⟨type, -, rfl⟩ := exists_of_columnOf h
  refine ⟨rfl, ?_⟩
  unfold Column.direction orderOf
  dsimp only
  generalize (d.clusteringKey.find? (·.name == decl.name)).map (·.order) = order
  rcases order with _ | _ | _ <;> rfl

theorem Made.column_of_place (made : Made d r t) (placed : place d name = .ok i) :
    ∃ c, t.columns[i]? = some c ∧ c.name = name ∧ c.direction = orderOf d name := by
  obtain ⟨decl, declared, rfl⟩ := exists_of_place placed
  obtain ⟨c, held, column⟩ := made.exists_column declared
  exact ⟨c, held, direction_of_columnOf column⟩

theorem Made.names_primaryKey (made : Made d r t) :
    t.primaryKey.map (·.name) = d.partitionKey ++ d.clusteringKey.map (·.name) := by
  have names {keys : List String} {listed : List Nat}
      (key : List.Forall₂ (fun name i => place d name = .ok i) keys listed) :
      (listed.filterMap (t.columns[·]?)).map (·.name) = keys.map id := by
    refine map_filterMap_of_forall₂ (key.imp fun name i placed => ?_)
    obtain ⟨c, held, same, -⟩ := made.column_of_place placed
    exact ⟨c, held, same⟩
  unfold primaryKey partitionKey clusteringKey
  rw [List.map_append, names made.partition, names made.clustering, List.map_id, List.map_id]

theorem Made.clusteringOrder_eq (made : Made d r t) :
    t.clusteringOrder = d.clusteringKey.map fun e => orderOf d e.name := by
  have key := made.clustering
  rw [List.forall₂_map_left_iff] at key
  refine map_filterMap_of_forall₂ (key.imp fun e i placed => ?_)
  obtain ⟨c, held, -, same⟩ := made.column_of_place placed
  exact ⟨c, held, same⟩

theorem Made.partition_iff (made : Made d r t) (held : t.columns[i]? = some c) :
    c.role = .partitionKey ↔ i ∈ t.partitionPlaces := by
  obtain ⟨decl, -, column⟩ := made.exists_decl held
  obtain ⟨type, -, rfl⟩ := exists_of_columnOf column
  exact roleOf_eq_partitionKey

theorem Made.clustering_iff (made : Made d r t) (declared : d.columns[i]? = some decl)
    (held : t.columns[i]? = some c) :
    (c.role = .clusteringKey ↔ i ∈ t.clusteringPlaces) ↔
      (decl.name ∈ d.clusteringKey.map (·.name) →
        place d decl.name = .ok i ∧ decl.name ∉ d.partitionKey) := by
  obtain ⟨type, -, rfl⟩ := exists_of_columnOf (made.columnOf_eq declared held)
  -- The role asks for the name and for a place outside the partition key, the key for the name and
  -- for the first column that has it.
  rw [roleOf_eq_clusteringKey, mem_key_iff made.partition declared,
    mem_key_iff made.clustering declared]
  tauto

end Columns

section Agreement

variable {d : TableDecl} {r : Registry} {t : Table}

theorem Made.nodup_places_iff (made : Made d r t) :
    (t.partitionPlaces ++ t.clusteringPlaces).Nodup ↔
      (d.partitionKey ++ d.clusteringKey.map (·.name)).Nodup :=
  (List.rel_nodup biUnique_place (List.rel_append made.partition made.clustering)).symm

theorem getElem?_names_iff {i : Nat} {name : String} :
    (d.columns.map (·.name))[i]? = some name ↔ ∃ decl, d.columns[i]? = some decl ∧
      decl.name = name := by
  rw [List.getElem?_map, Option.map_eq_some_iff]

/-- Every column with a name in the clustering key is the first of its name, and is not in the
partition key, exactly if the names in the clustering key are those of one column and not in the
partition key. -/
theorem Made.first_iff (made : Made d r t) :
    (∀ (i : Nat) (decl : ColumnDecl), d.columns[i]? = some decl →
      decl.name ∈ d.clusteringKey.map (·.name) →
        place d decl.name = .ok i ∧ decl.name ∉ d.partitionKey) ↔
      (∀ name ∈ d.partitionKey, name ∉ d.clusteringKey.map (·.name)) ∧
        ∀ name ∈ d.clusteringKey.map (·.name), (d.columns.map (·.name)).count name ≤ 1 := by
  have placed {name : String} (member : name ∈ d.clusteringKey.map (·.name)) :
      ∃ i, place d name = .ok i := by
    obtain ⟨i, -, placed⟩ := exists_of_forall₂ made.clustering.flip member
    exact ⟨i, placed⟩
  constructor
  · intro first
    constructor
    · intro name inner outer
      obtain ⟨i, placed⟩ := placed outer
      obtain ⟨decl, declared, rfl⟩ := exists_of_place placed
      exact (first i decl declared outer).2 inner
    · intro name member
      refine count_le_one_iff.mpr fun i j here there => ?_
      obtain ⟨decl, declared, rfl⟩ := getElem?_names_iff.mp here
      obtain ⟨decl', declared', same⟩ := getElem?_names_iff.mp there
      have one := (first i decl declared member).1
      have other := (first j decl' declared' (same ▸ member)).1
      rw [same] at other
      exact Except.ok.inj (one.symm.trans other)
  · rintro ⟨apart, single⟩ i decl declared member
    obtain ⟨j, placed⟩ := placed member
    have here := getElem?_names_iff.mpr ⟨decl, declared, rfl⟩
    have there := getElem?_names_iff.mpr (exists_of_place placed)
    obtain rfl := count_le_one_iff.mp (single _ member) i j here there
    exact ⟨placed, fun inner => apart _ inner member⟩

theorem Made.clustering_marked_iff (made : Made d r t) :
    (∀ (i : Nat) (c : Column), t.columns[i]? = some c →
      (c.role = .clusteringKey ↔ i ∈ t.clusteringPlaces)) ↔
      (∀ name ∈ d.partitionKey, name ∉ d.clusteringKey.map (·.name)) ∧
        ∀ name ∈ d.clusteringKey.map (·.name), (d.columns.map (·.name)).count name ≤ 1 := by
  rw [← made.first_iff]
  constructor
  · intro marked i decl declared
    obtain ⟨c, held, -⟩ := made.exists_column declared
    exact (made.clustering_iff declared held).mp (marked i c held)
  · intro first i c held
    obtain ⟨decl, declared, -⟩ := made.exists_decl held
    exact (made.clustering_iff declared held).mpr (first i decl declared)

theorem Made.order_of_nodup (made : Made d r t) (once : (d.clusteringKey.map (·.name)).Nodup) :
    t.clusteringOrder = d.clusteringKey.map (·.order) := by
  rw [made.clusteringOrder_eq]
  refine List.map_congr_left fun e member => ?_
  rw [orderOf, find?_of_nodup once member]
  rfl

/-- The primary key of a table that has been built from a declaration has the columns of the
declared names, and the roles tell which columns are in its partition key. All of its keys agree
with its columns exactly if no name is in the keys twice, be it in one of them or in both, and no
name in the clustering key is that of two columns: nothing refuses these. -/
theorem ofDecl_keysAgree_iff (built : ofDecl d r = .ok t) :
    (t.primaryKey.map (·.name) = d.partitionKey ++ d.clusteringKey.map (·.name) ∧
      ∀ (i : Nat) (c : Column), t.columns[i]? = some c →
        (c.role = .partitionKey ↔ i ∈ t.partitionPlaces)) ∧
    (KeysAgree d t ↔ (d.partitionKey ++ d.clusteringKey.map (·.name)).Nodup ∧
      ∀ name ∈ d.clusteringKey.map (·.name), (d.columns.map (·.name)).count name ≤ 1) := by
  have made := made_of_ofDecl built
  refine ⟨⟨made.names_primaryKey, fun _ _ => made.partition_iff⟩, ?_⟩
  constructor
  · intro agree
    exact ⟨made.nodup_places_iff.mp agree.once, (made.clustering_marked_iff.mp agree.clustering).2⟩
  · rintro ⟨once, single⟩
    obtain ⟨-, clustering, apart⟩ := List.nodup_append.mp once
    have marked := made.clustering_marked_iff.mpr
      ⟨fun name inner outer => apart name inner name outer rfl, single⟩
    exact ⟨⟨made.nodup_places_iff.mpr once, fun _ _ => made.partition_iff, marked⟩,
      made.order_of_nodup clustering⟩

theorem ofDecl_keysAgree_iff_samples :
    let d : TableDecl :=
      { name := "samples"
        columns := [⟨"at", "timestamp", false, none⟩, ⟨"day", "date", false, none⟩,
          ⟨"seq", "int", false, none⟩, ⟨"series", "text", false, none⟩,
          ⟨"day", "text", true, none⟩]
        partitionKey := ["series", "day"]
        clusteringKey := [⟨"at", .desc⟩, ⟨"seq", .asc⟩]
        options := none }
    ∃ t, ofDecl d .empty = .ok t ∧ KeysAgree d t ∧
      t.primaryKey.map (·.name) = ["series", "day", "at", "seq"] ∧
        t.columns.map (·.role) =
          [.clusteringKey, .partitionKey, .clusteringKey, .partitionKey, .static] := by
  intro d
  have built : ∃ t, ofDecl d .empty = .ok t ∧ t.columns.map (·.role) =
      [.clusteringKey, .partitionKey, .clusteringKey, .partitionKey, .static] := by
    subst d
    exact ⟨_, rfl, rfl⟩
  obtain ⟨t, built, roles⟩ := built
  obtain ⟨⟨names, -⟩, agree⟩ := ofDecl_keysAgree_iff built
  exact ⟨t, built, agree.mpr (by decide), names, roles⟩

/-- A name twice in the partition key, a name in both keys, a name twice in the clustering key with
two orders, and a name in the clustering key that two columns have. -/
theorem ofDecl_keys_disagree :
    let decl (columns partition : List String) (clustering : List ClusteringDecl) : TableDecl :=
      { name := "t", columns := columns.map (⟨·, "int", false, none⟩), partitionKey := partition
        clusteringKey := clustering, options := none }
    (∃ t, ofDecl (decl ["a"] ["a", "a"] []) .empty = .ok t ∧
      ¬ (t.partitionPlaces ++ t.clusteringPlaces).Nodup) ∧
    (∃ t, ofDecl (decl ["a"] ["a"] [⟨"a", .asc⟩]) .empty = .ok t ∧
      t.clusteringKey.map (·.role) = [.partitionKey]) ∧
    (∃ t, ofDecl (decl ["a", "b"] ["a"] [⟨"b", .asc⟩, ⟨"b", .desc⟩]) .empty = .ok t ∧
      t.clusteringOrder = [.asc, .asc]) ∧
    ∃ t, ofDecl (decl ["a", "b", "b"] ["a"] [⟨"b", .asc⟩]) .empty = .ok t ∧
      t.clusteringPlaces = [1] ∧
        t.columns.map (·.role) = [.partitionKey, .clusteringKey, .clusteringKey] := by
  intro decl
  subst decl
  exact ⟨⟨_, rfl, by decide⟩, ⟨_, rfl, rfl⟩, ⟨_, rfl, rfl⟩, ⟨_, rfl, rfl, rfl⟩⟩

end Agreement

end Table

end Cql
