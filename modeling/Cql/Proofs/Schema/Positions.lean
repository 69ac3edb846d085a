import Cql.Proofs.Schema.Keys

namespace Cql

section Lists

variable {α β : Type}

theorem forall₂_filterMap {f : α → Option β} {xs : List α} (all : ∀ x ∈ xs, ∃ y, f x = some y) :
    List.Forall₂ (fun x y => f x = some y) xs (xs.filterMap f) := by
  induction xs with
  | nil => exact .nil
  | cons x xs ih =>
    obtain ⟨⟨y, here⟩, rest⟩ := List.forall_mem_cons.mp all
    rw [List.filterMap_cons_some here]
    exact .cons here (ih rest)

theorem eq_filterMap_of_forall₂ {f : α → Option β} {xs : List α} {ys : List β}
    (held : List.Forall₂ (fun x y => f x = some y) xs ys) : ys = xs.filterMap f := by
  induction held with
  | nil => rfl
  | cons first _ ih => rw [List.filterMap_cons_some first, ih]

end Lists

namespace Table

/-- The key of a role: its columns are those at the places, and these are the places of all columns
of the role, each once, by position and then as the columns stand in the table. -/
structure IsKey (m : TableMeta) (t : Table) (role : Role) (places : List Nat)
    (key : List Column) : Prop where
  held : List.Forall₂ (fun i c => t.columns[i]? = some c) places key
  once : places.Nodup
  marked : ∀ (i : Nat) (c : Column), t.columns[i]? = some c → (c.role = role ↔ i ∈ places)
  perm : key.Perm (t.columns.filter (·.role = role))
  ordered : places.Pairwise (Precedes m.columns)

section Keys

variable {m : TableMeta} {t : Table} {role : Role} {places : List Nat}

/-- Columns at different places, those at which a column of the role stands, are the columns of the
role. -/
theorem perm_of_marked {columns key : List Column}
    (held : List.Forall₂ (fun (i : Nat) c => columns[i]? = some c) places key)
    (once : places.Nodup)
    (marked : ∀ (i : Nat) (c : Column), columns[i]? = some c → (c.role = role ↔ i ∈ places)) :
    key.Perm (columns.filter (·.role = role)) := by
  let found := columns.zipIdx.filter (·.1.role = role)
  have mem_found {x : Column × Nat} : x ∈ found ↔ columns[x.2]? = some x.1 ∧ x.1.role = role := by
    simp [found, List.mem_zipIdx_iff_getElem?]
  have same : places.Perm (found.map Prod.snd) := by
    refine (List.perm_ext_iff_of_nodup once nodup_filter_zipIdx).mpr fun i => ?_
    constructor
    · intro member
      obtain ⟨c, -, here⟩ := exists_of_forall₂ held.flip member
      exact List.mem_map.mpr ⟨(c, i), mem_found.mpr ⟨here, (marked i c here).mpr member⟩, rfl⟩
    · intro member
      obtain ⟨x, own, rfl⟩ := List.mem_map.mp member
      obtain ⟨here, role⟩ := mem_found.mp own
      exact (marked x.2 x.1 here).mp role
  have columns_found : (found.map Prod.snd).filterMap (columns[·]?) =
      columns.filter (·.role = role) := by
    calc
      _ = found.map Prod.fst := by
        rw [List.filterMap_map, ← List.filterMap_eq_map]
        exact List.filterMap_congr fun x own => (mem_found.mp own).1
      _ = (columns.zipIdx.map Prod.fst).filter (·.role = role) := by
        rw [List.filter_map]
        rfl
      _ = columns.filter (·.role = role) := by rw [List.zipIdx_map_fst]
  rw [eq_filterMap_of_forall₂ held, ← columns_found]
  exact same.filterMap _

/-- The places that are found for a role are those of its key. -/
theorem isKey_places (columns : List.Forall₂ (fun x c => Column.ofMeta x = .ok c) m.columns t.columns)
    (role : Role) :
    IsKey m t role (Table.places role m.columns)
      ((Table.places role m.columns).filterMap (t.columns[·]?)) := by
  have within : ∀ i ∈ Table.places role m.columns, ∃ c, t.columns[i]? = some c := by
    intro i member
    obtain ⟨x, here, -⟩ := mem_places.mp member
    rw [exists_getElem?_iff, ← columns.length_eq, ← exists_getElem?_iff]
    exact ⟨x, here⟩
  have held := forall₂_filterMap within
  have marked : ∀ (i : Nat) (c : Column), t.columns[i]? = some c →
      (c.role = role ↔ i ∈ Table.places role m.columns) :=
    fun _ _ here => role_iff_mem_places columns here
  exact ⟨held, nodup_places, marked, perm_of_marked held nodup_places marked, precedes_places⟩

/-- A table that is built from metadata has a column for each that is reported, in the same order.
Its keys have the columns of their roles, every one of them once, by position and then in the order
of the table; no column is in both. The primary key has the columns of the one before those of the
other, and with each clustering column goes its own direction. -/
theorem ofMeta_keys (built : ofMeta m = .ok t) :
    List.Forall₂ (fun x c => Column.ofMeta x = .ok c ∧ c.name = x.name ∧ c.role = x.role)
        m.columns t.columns ∧
      IsKey m t .partitionKey t.partitionPlaces t.partitionKey ∧
      IsKey m t .clusteringKey t.clusteringPlaces t.clusteringKey ∧
      t.partitionPlaces.Disjoint t.clusteringPlaces ∧
      t.primaryKey = t.partitionKey ++ t.clusteringKey ∧
      List.Forall₂ (fun (i : Nat) c => t.columns[i]? = some c)
        (t.partitionPlaces ++ t.clusteringPlaces) t.primaryKey ∧
      List.Forall₂ (fun (i : Nat) d => ∃ c, t.columns[i]? = some c ∧ c.direction = d)
        t.clusteringPlaces t.clusteringOrder := by
  obtain ⟨columns, partitionPlaces, clusteringPlaces⟩ := made_of_ofMeta built
  have partition : IsKey m t .partitionKey t.partitionPlaces t.partitionKey := by
    unfold partitionKey
    rw [partitionPlaces]
    exact isKey_places columns _
  have clustering : IsKey m t .clusteringKey t.clusteringPlaces t.clusteringKey := by
    unfold clusteringKey
    rw [clusteringPlaces]
    exact isKey_places columns _
  refine ⟨?_, partition, clustering, ?_, rfl, List.rel_append partition.held clustering.held, ?_⟩
  · exact columns.imp fun _ _ column => ⟨column, name_role_of_ofMeta column⟩
  · exact List.disjoint_of_nodup_append (rolesAgree_of_ofMeta built).once
  · exact List.forall₂_map_right_iff.mpr (clustering.held.imp fun _ c here => ⟨c, here, rfl⟩)

def readings : TableMeta where
  name := "readings"
  columns := [
    { name := "at", role := .clusteringKey, position := 5, dataType := some (.scalar .timestamp)
      fields := [("clustering_order", .text "desc")] },
    { name := "site", role := .partitionKey, position := 7 },
    { name := "value", role := .regular, position := 1 },
    { name := "region", role := .partitionKey, position := 0 },
    { name := "sensor", role := .clusteringKey, position := 5 },
    { name := "day", role := .partitionKey, position := 7 },
    { name := "unit", role := .clusteringKey, position := 2 }]

theorem ofMeta_keys_readings :
    ∃ t, ofMeta readings = .ok t ∧
      IsKey readings t .partitionKey t.partitionPlaces t.partitionKey ∧
      IsKey readings t .clusteringKey t.clusteringPlaces t.clusteringKey ∧
      t.primaryKey.map (·.name) = ["region", "site", "day", "unit", "at", "sensor"] ∧
      t.clusteringOrder = [.asc, .desc, .asc] := by
  obtain ⟨t, built, names, order⟩ : ∃ t, ofMeta readings = .ok t ∧
      t.primaryKey.map (·.name) = ["region", "site", "day", "unit", "at", "sensor"] ∧
      t.clusteringOrder = [.asc, .desc, .asc] := ⟨_, rfl, by cbv, by cbv⟩
  obtain ⟨-, partition, clustering, -⟩ := ofMeta_keys built
  exact ⟨t, built, partition, clustering, names, order⟩

end Keys

end Table

end Cql
