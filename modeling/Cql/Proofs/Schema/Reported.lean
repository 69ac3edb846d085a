import Cql.Proofs.Schema.Declared
import Cql.Proofs.Validator.Text

/-!
Tables as drivers report them. The metadata of a declared table has the same columns in the same
order, tells the places of key columns by position, and the type of a column either decoded or as a
validator. From it the same table is built as from the declaration: the same columns, and the keys
in the same order.
-/

namespace Cql

section Lists

variable {α : Type}

theorem nodup_filter_zipIdx {xs : List α} {p : α × Nat → Bool} :
    ((xs.zipIdx.filter p).map Prod.snd).Nodup := by
  have sub := (List.filter_sublist (p := p) (l := xs.zipIdx)).map Prod.snd
  rw [List.zipIdx_map_snd] at sub
  exact sub.nodup List.nodup_range'

theorem filter_mergeSort (key : α → Nat) (xs : List α) (n : Nat) :
    (xs.mergeSort fun a b => key a ≤ key b).filter (key · = n) = xs.filter (key · = n) := by
  have same : (xs.filter (key · = n)).Pairwise fun a b => decide (key a ≤ key b) = true := by
    refine List.pairwise_filter.mpr (List.pairwise_of_forall fun a b ha hb => ?_)
    simp only [decide_eq_true_eq] at *
    omega
  have kept : (xs.filter (key · = n)).Sublist (xs.mergeSort fun a b => key a ≤ key b) := by
    refine List.sublist_mergeSort ?_ ?_ same List.filter_sublist
    · simp only [decide_eq_true_eq]
      omega
    · simp only [Bool.or_eq_true, decide_eq_true_eq]
      omega
  have filtered := kept.filter (key · = n)
  rw [List.filter_filter] at filtered
  simp only [Bool.and_self] at filtered
  exact (filtered.eq_of_length ((List.mergeSort_perm xs _).filter _).length_eq.symm).symm

/-- Items are sorted by their numbers, and those of one number keep their order. -/
theorem pairwise_mergeSort_stable (key : α → Nat) {R : α → α → Prop} {xs : List α}
    (ordered : xs.Pairwise R) :
    (xs.mergeSort fun a b => key a ≤ key b).Pairwise fun a b =>
      key a < key b ∨ key a = key b ∧ R a b := by
  have sorted : (xs.mergeSort fun a b => key a ≤ key b).Pairwise
      fun a b => decide (key a ≤ key b) = true := by
    apply List.pairwise_mergeSort
    · simp only [decide_eq_true_eq]
      omega
    · simp only [Bool.or_eq_true, decide_eq_true_eq]
      omega
  rw [List.pairwise_iff_forall_sublist] at sorted ⊢
  intro a b pair
  have le : key a ≤ key b := by simpa using sorted pair
  rcases Nat.lt_or_eq_of_le le with less | same
  · exact .inl less
  · have alike : ((xs.mergeSort fun a b => key a ≤ key b).filter (key · = key b)).Pairwise R := by
      rw [filter_mergeSort]
      exact ordered.filter _
    have kept := pair.filter (key · = key b)
    simp only [List.filter_cons, same, decide_true, if_true, List.filter_nil] at kept
    exact .inr ⟨same, List.pairwise_iff_forall_sublist.mp alike kept⟩

end Lists

namespace Table

inductive Ordered (d : TableDecl) (name : String) : Direction → Prop
  | key {e : ClusteringDecl} (member : e ∈ d.clusteringKey) (same : e.name = name) :
      Ordered d name e.order
  | free (other : ∀ e ∈ d.clusteringKey, e.name ≠ name) : Ordered d name .asc

/-- How type, order and frozenness of a column are reported: decoded, in three places, or all in a
validator. -/
inductive Told (t : Ty) (order : Direction) (frozen : Bool) (m : ColumnMeta) : Prop
  | decoded (plain : m.field? "validator" = none) (type : m.dataType = some t)
      (flag : m.frozen = frozen) (ordered : m.field? "clustering_order" = some (.text order.name)) :
      Told t order frozen m
  | validator {qualified : Bool} {text : String} (classed : Validator.Classed t)
      (written : Validator.text? qualified ⟨t, order = .desc, frozen⟩ = some text)
      (field : m.field? "validator" = some (.text text)) : Told t order frozen m

/-- What the metadata of a column says, if it is that of the column `c` built from the declaration
`decl`, whose type is looked up in the registry. -/
structure Reports (d : TableDecl) (r : Registry) (decl : ColumnDecl) (c : Column)
    (m : ColumnMeta) : Prop where
  name : m.name = decl.name
  role : m.role = c.role
  partition : c.role = .partitionKey → d.partitionKey[m.position]? = some decl.name
  clustering : c.role = .clusteringKey →
    (d.clusteringKey.map (·.name))[m.position]? = some decl.name
  index : m.field? "index_name" = decl.index.map .text
  options : m.field? "index_options" = none
  told : ∃ t order, r.parse decl.type = .ok t ∧ Ordered d decl.name order ∧
    Told t order c.frozen m

structure ReportsAll (d : TableDecl) (r : Registry) (t : Table) (m : TableMeta) : Prop where
  count : m.columns.length = d.columns.length
  column : ∀ (i : Nat) (decl : ColumnDecl) (c : Column) (x : ColumnMeta),
    d.columns[i]? = some decl → t.columns[i]? = some c → m.columns[i]? = some x →
      Reports d r decl c x

section Columns

variable {d : TableDecl} {r : Registry} {places : List Nat} {decl : ColumnDecl} {i : Nat}
  {c : Column} {m : ColumnMeta}

theorem exists_of_columnOf (h : columnOf d r places decl i = .ok c) :
    ∃ t, r.parse decl.type = .ok t ∧
      c = { name := decl.name, type := some t, role := roleOf d places i decl
            reversed := (d.clusteringKey.find? (·.name == decl.name)).map (·.order) == some .desc
            frozen := isFrozenText decl.type, indexName := decl.index } := by
  unfold columnOf at h
  obtain ⟨t, parsed, left⟩ := bind_eq_ok_iff.mp h
  refine ⟨t, inContext_eq_ok_iff.mp parsed, ?_⟩
  dsimp only at left
  split at left
  · contradiction
  · exact (Except.ok.inj left).symm

theorem find?_of_nodup {α : Type} {key : α → String} {xs : List α} (once : (xs.map key).Nodup)
    {x : α} (member : x ∈ xs) : xs.find? (key · == key x) = some x := by
  have present : (xs.find? (key · == key x)).isSome := List.find?_isSome.mpr ⟨x, member, by simp⟩
  obtain ⟨y, found⟩ := Option.isSome_iff_exists.mp present
  have same : key y = key x := by simpa using List.find?_some found
  rw [found, List.inj_on_of_nodup_map once (List.mem_of_find?_eq_some found) member same]

theorem reversed_of_ordered (once : (d.clusteringKey.map (·.name)).Nodup) {name : String}
    {order : Direction} (ordered : Ordered d name order) :
    ((d.clusteringKey.find? (·.name == name)).map (·.order) == some .desc) =
      decide (order = .desc) := by
  cases ordered with
  | @key e member same =>
    have found := find?_of_nodup once member
    rw [same] at found
    rw [found, Option.map_some]
    cases e.order <;> rfl
  | free other =>
    have absent : d.clusteringKey.find? (·.name == name) = none := by simpa using other
    rw [absent]
    rfl

theorem textField_of_field {name : String} {text : Option String}
    (field : m.field? name = text.map .text) : m.textField name = .ok text := by
  unfold ColumnMeta.textField
  rw [field]
  cases text <;> rfl

/-- The metadata of a column is read as the column. -/
theorem column_of_reports (once : (d.clusteringKey.map (·.name)).Nodup)
    (built : columnOf d r places decl i = .ok c) (reports : Reports d r decl c m) :
    Column.ofMeta m = .ok c := by
  obtain ⟨t, parsed, rfl⟩ := exists_of_columnOf built
  obtain ⟨name, role, -, -, index, options, t', order, parsed', ordered, told⟩ := reports
  obtain rfl : t = t' := Except.ok.inj (parsed.symm.trans parsed')
  have first := textField_of_field index
  have second : m.textField "index_options" = .ok none := textField_of_field options
  have reversed := reversed_of_ordered once ordered
  cases told with
  | decoded plain type flag shown =>
    have third : m.textField "validator" = .ok none := textField_of_field plain
    have fourth : m.textField "clustering_order" = .ok (some order.name) :=
      textField_of_field shown
    have descending : (order.name == "desc") = decide (order = .desc) := by cases order <;> rfl
    simp only [Column.ofMeta, first, second, third, fourth, type, flag, name, role, reversed,
      descending, bind, Except.bind, pure, Except.pure]
  | @validator qualified text classed written field =>
    have third : m.textField "validator" = .ok (some text) := textField_of_field field
    have read : Validator.parse text = .ok ⟨t, decide (order = .desc), isFrozenText decl.type⟩ :=
      Validator.parse_of_text classed written
    simp only [Column.ofMeta, first, second, third, read, name, role, reversed, onValue,
      inContext, bind, Except.bind, pure, Except.pure]

end Columns

section Keys

def ofRole (role : Role) (columns : List ColumnMeta) : List (ColumnMeta × Nat) :=
  columns.zipIdx.filter (·.1.role = role)

def NotAfter (columns : List ColumnMeta) (i j : Nat) : Prop :=
  ∃ a b : ColumnMeta, columns[i]? = some a ∧ columns[j]? = some b ∧ a.position ≤ b.position

/-- The column at the one place comes before the column at the other: its position is lower, or it
is the same and the column stands further to the front of the table. -/
def Precedes (columns : List ColumnMeta) (i j : Nat) : Prop :=
  ∃ a b : ColumnMeta, columns[i]? = some a ∧ columns[j]? = some b ∧
    (a.position < b.position ∨ a.position = b.position ∧ i < j)

section Places

variable {role : Role} {columns : List ColumnMeta} {listed : List Nat}

theorem mem_ofRole {x : ColumnMeta × Nat} :
    x ∈ ofRole role columns ↔ columns[x.2]? = some x.1 ∧ x.1.role = role := by
  simp [ofRole, List.mem_zipIdx_iff_getElem?]

theorem nodup_ofRole : ((ofRole role columns).map Prod.snd).Nodup := nodup_filter_zipIdx

theorem places_perm : (places role columns).Perm ((ofRole role columns).map Prod.snd) :=
  (List.mergeSort_perm _ _).map Prod.snd

theorem nodup_places : (places role columns).Nodup := places_perm.nodup_iff.mpr nodup_ofRole

theorem mem_places {i : Nat} :
    i ∈ places role columns ↔ ∃ m : ColumnMeta, columns[i]? = some m ∧ m.role = role := by
  rw [places_perm.mem_iff]
  simp [mem_ofRole]

theorem pairwise_ofRole : (ofRole role columns).Pairwise (·.2 < ·.2) := by
  have places : (columns.zipIdx.map Prod.snd).Pairwise (· < ·) := by
    rw [List.zipIdx_map_snd]
    exact List.pairwise_lt_range'
  exact (List.pairwise_map.mp places).filter _

theorem precedes_places : (places role columns).Pairwise (Precedes columns) := by
  unfold places
  rw [List.pairwise_map]
  have fronts : (ofRole role columns).Pairwise (·.2 < ·.2) := pairwise_ofRole
  have sorted := pairwise_mergeSort_stable (·.1.position) fronts
  refine sorted.imp_of_mem ?_
  intro a b ha hb before
  have here := mem_ofRole.mp (List.mem_mergeSort.mp ha)
  have there := mem_ofRole.mp (List.mem_mergeSort.mp hb)
  exact ⟨a.1, b.1, here.1, there.1, before⟩

theorem pairwise_places : (places role columns).Pairwise (NotAfter columns) :=
  precedes_places.imp fun ⟨a, b, here, there, before⟩ => ⟨a, b, here, there, by omega⟩

theorem places_eq
    (mem : ∀ i, i ∈ listed ↔ ∃ m : ColumnMeta, columns[i]? = some m ∧ m.role = role)
    (position : ∀ (k i : Nat) (m : ColumnMeta), listed[k]? = some i → columns[i]? = some m →
      m.position = k) :
    places role columns = listed := by
  have column {k i : Nat} (h : listed[k]? = some i) :
      ∃ m : ColumnMeta, columns[i]? = some m ∧ m.position = k := by
    obtain ⟨m, held, -⟩ := (mem i).mp (List.mem_of_getElem? h)
    exact ⟨m, held, position k i m h held⟩
  have nodup : listed.Nodup := by
    rw [List.nodup_iff_getElem?_ne_getElem?]
    intro k l less bound same
    obtain ⟨m, held, first⟩ := column (List.getElem?_eq_getElem bound)
    have second := position k _ m (same.trans (List.getElem?_eq_getElem bound)) held
    omega
  have increasing : listed.Pairwise (NotAfter columns) := by
    rw [List.pairwise_iff_getElem]
    intro k l hk hl less
    obtain ⟨a, first, here⟩ := column (List.getElem?_eq_getElem hk)
    obtain ⟨b, second, there⟩ := column (List.getElem?_eq_getElem hl)
    exact ⟨a, b, first, second, by omega⟩
  have perm : (places role columns).Perm listed := by
    refine (List.perm_ext_iff_of_nodup nodup_places nodup).mpr fun i => ?_
    rw [mem_places, mem]
  refine List.Perm.eq_of_pairwise ?_ pairwise_places increasing perm
  intro i j hi hj ⟨a, b, first, second, le⟩ ⟨b', a', second', first', ge⟩
  obtain rfl : a = a' := Option.some.inj (first.symm.trans first')
  obtain rfl : b = b' := Option.some.inj (second.symm.trans second')
  obtain ⟨k, hk⟩ := List.getElem?_of_mem (perm.mem_iff.mp hi)
  obtain ⟨l, hl⟩ := List.getElem?_of_mem hj
  have here := position k i a hk first
  have there := position l j b hl second
  obtain rfl : k = l := by omega
  exact Option.some.inj (hk.symm.trans hl)

end Places

section Made

variable {d : TableDecl} {r : Registry} {t : Table} {decl decl' : ColumnDecl} {c : Column}
  {name : String} {i j k : Nat}

theorem exists_getElem?_iff {α : Type} {xs : List α} : (∃ x, xs[i]? = some x) ↔ i < xs.length := by
  rw [← Option.isSome_iff_exists]
  simp

structure Made (d : TableDecl) (r : Registry) (t : Table) : Prop where
  partition : List.Forall₂ (fun name i => place d name = .ok i) d.partitionKey t.partitionPlaces
  clustering : List.Forall₂ (fun name i => place d name = .ok i) (d.clusteringKey.map (·.name))
    t.clusteringPlaces
  columns : List.Forall₂ (fun e c => columnOf d r t.partitionPlaces e.1 e.2 = .ok c)
    d.columns.zipIdx t.columns

theorem made_of_ofDecl (h : ofDecl d r = .ok t) : Made d r t := by
  unfold ofDecl at h
  obtain ⟨⟨partition, clustering⟩, keys, left⟩ := bind_eq_ok_iff.mp h
  obtain ⟨columns, made, done⟩ := bind_eq_ok_iff.mp left
  obtain rfl := Except.ok.inj done
  obtain ⟨own, first, left⟩ := bind_eq_ok_iff.mp (inContext_eq_ok_iff.mp keys)
  obtain ⟨others, second, left⟩ := bind_eq_ok_iff.mp left
  dsimp only at left
  split at left
  · contradiction
  · obtain ⟨rfl, rfl⟩ := Prod.mk.inj (Except.ok.inj left)
    exact ⟨mapM_eq_ok_iff.mp first, List.forall₂_map_left_iff.mpr (mapM_eq_ok_iff.mp second),
      mapM_eq_ok_iff.mp made⟩

theorem exists_of_place (h : place d name = .ok i) :
    ∃ decl, d.columns[i]? = some decl ∧ decl.name = name := by
  unfold place at h
  split at h
  · rename_i j found
    obtain rfl := Except.ok.inj h
    obtain ⟨bound, same, -⟩ := List.findIdx?_eq_some_iff_getElem.mp found
    exact ⟨d.columns[j], List.getElem?_eq_getElem bound, by simpa using same⟩
  · contradiction

theorem biUnique_place : Relator.BiUnique fun name i => place d name = .ok i := by
  constructor
  · intro name name' i first second
    obtain ⟨decl, held, rfl⟩ := exists_of_place first
    obtain ⟨decl', held', rfl⟩ := exists_of_place second
    rw [Option.some.inj (held.symm.trans held')]
  · intro name i j first second
    exact Except.ok.inj (first.symm.trans second)

theorem mem_key_iff {names : List String} {listed : List Nat}
    (key : List.Forall₂ (fun name i => place d name = .ok i) names listed)
    (held : d.columns[i]? = some decl) :
    i ∈ listed ↔ place d decl.name = .ok i ∧ decl.name ∈ names := by
  constructor
  · intro member
    obtain ⟨name, present, placed⟩ := exists_of_forall₂ key member
    obtain ⟨decl', held', rfl⟩ := exists_of_place placed
    obtain rfl : decl' = decl := Option.some.inj (held'.symm.trans held)
    exact ⟨placed, present⟩
  · rintro ⟨placed, present⟩
    exact (List.rel_mem biUnique_place placed key).mp present

theorem Made.length_columns (made : Made d r t) : t.columns.length = d.columns.length := by
  rw [← made.columns.length_eq, List.length_zipIdx]

theorem Made.exists_decl (made : Made d r t) (held : t.columns[i]? = some c) :
    ∃ decl, d.columns[i]? = some decl ∧ columnOf d r t.partitionPlaces decl i = .ok c := by
  obtain ⟨⟨decl, j⟩, declared, built⟩ := getElem?_of_forall₂ made.columns held
  rw [List.getElem?_zipIdx, Option.map_eq_some_iff] at declared
  obtain ⟨decl', declared, same⟩ := declared
  obtain ⟨rfl, rfl⟩ : decl' = decl ∧ i = j := by simpa using same
  exact ⟨decl', declared, built⟩

theorem Made.columnOf_eq (made : Made d r t) (declared : d.columns[i]? = some decl)
    (held : t.columns[i]? = some c) : columnOf d r t.partitionPlaces decl i = .ok c := by
  obtain ⟨decl', declared', column⟩ := made.exists_decl held
  obtain rfl : decl' = decl := Option.some.inj (declared'.symm.trans declared)
  exact column

variable (distinct : (d.columns.map (·.name)).Nodup)
include distinct

theorem place_unique (here : d.columns[i]? = some decl) (there : d.columns[j]? = some decl')
    (same : decl.name = decl'.name) : i = j := by
  have first : (d.columns.map (·.name))[i]? = some decl.name := by
    rw [List.getElem?_map, here]
    rfl
  have second : (d.columns.map (·.name))[j]? = some decl.name := by
    rw [List.getElem?_map, there, same]
    rfl
  obtain ⟨bound, -⟩ := List.getElem?_eq_some_iff.mp first
  exact (List.getElem?_inj bound distinct).mp (first.trans second.symm)

theorem mem_places_iff {names : List String} {listed : List Nat}
    (key : List.Forall₂ (fun name i => place d name = .ok i) names listed)
    (held : d.columns[i]? = some decl) : i ∈ listed ↔ decl.name ∈ names := by
  rw [mem_key_iff key held]
  refine ⟨And.right, fun present => ⟨?_, present⟩⟩
  obtain ⟨j, -, placed⟩ := exists_of_forall₂ key.flip present
  obtain ⟨decl', held', same⟩ := exists_of_place placed
  obtain rfl := place_unique distinct held' held same
  exact placed

theorem places_of_key {names : List String} {listed : List Nat} {role : Role}
    {columns : List ColumnMeta}
    (key : List.Forall₂ (fun name i => place d name = .ok i) names listed) (once : names.Nodup)
    (count : columns.length = d.columns.length)
    (told : ∀ (i : Nat) (decl : ColumnDecl) (m : ColumnMeta), d.columns[i]? = some decl →
      columns[i]? = some m → (m.role = role ↔ decl.name ∈ names) ∧
        (m.role = role → names[m.position]? = some decl.name)) :
    places role columns = listed := by
  have pair (i : Nat) : (∃ m, columns[i]? = some m) ↔ ∃ decl, d.columns[i]? = some decl := by
    rw [exists_getElem?_iff, exists_getElem?_iff, count]
  apply places_eq
  · intro i
    constructor
    · intro member
      obtain ⟨name, present, placed⟩ := exists_of_forall₂ key member
      obtain ⟨decl, held, rfl⟩ := exists_of_place placed
      obtain ⟨m, reported⟩ := (pair i).mpr ⟨decl, held⟩
      exact ⟨m, reported, (told i decl m held reported).1.mpr present⟩
    · rintro ⟨m, reported, own⟩
      obtain ⟨decl, held⟩ := (pair i).mp ⟨m, reported⟩
      exact (mem_places_iff distinct key held).mpr ((told i decl m held reported).1.mp own)
  · intro k i m here reported
    obtain ⟨name, there, placed⟩ := getElem?_of_forall₂ key here
    obtain ⟨decl, held, rfl⟩ := exists_of_place placed
    obtain ⟨role, position⟩ := told i decl m held reported
    have same := position (role.mpr (List.mem_of_getElem? there))
    obtain ⟨bound, -⟩ := List.getElem?_eq_some_iff.mp same
    exact (List.getElem?_inj bound once).mp (same.trans there.symm)

end Made

theorem roleOf_eq_partitionKey {d : TableDecl} {listed : List Nat} {i : Nat} {decl : ColumnDecl} :
    roleOf d listed i decl = .partitionKey ↔ i ∈ listed := by
  unfold roleOf
  split
  · simp_all
  · split
    · simp_all
    · split <;> simp_all

theorem roleOf_eq_clusteringKey {d : TableDecl} {listed : List Nat} {i : Nat} {decl : ColumnDecl} :
    roleOf d listed i decl = .clusteringKey ↔
      i ∉ listed ∧ decl.name ∈ d.clusteringKey.map (·.name) := by
  unfold roleOf
  split
  · simp_all
  · split
    · simp_all
    · split <;> simp_all

end Keys

section Agreement

variable {d : TableDecl} {r : Registry} {t : Table} {m : TableMeta} {decl : ColumnDecl}
  {x : ColumnMeta} {i : Nat}

theorem ReportsAll.exists_column (reported : ReportsAll d r t m) (made : Made d r t)
    (held : m.columns[i]? = some x) :
    ∃ decl c, d.columns[i]? = some decl ∧ t.columns[i]? = some c ∧
      columnOf d r t.partitionPlaces decl i = .ok c ∧ Reports d r decl c x := by
  obtain ⟨bound, -⟩ := List.getElem?_eq_some_iff.mp held
  rw [reported.count, ← made.length_columns] at bound
  obtain ⟨c, built⟩ := exists_getElem?_iff.mpr bound
  obtain ⟨decl, declared, column⟩ := made.exists_decl built
  exact ⟨decl, c, declared, built, column, reported.column i decl c x declared built held⟩

theorem ReportsAll.mapM_columns (reported : ReportsAll d r t m) (made : Made d r t)
    (once : (d.clusteringKey.map (·.name)).Nodup) (context : String) :
    m.columns.mapM (fun x => inContext context (Column.ofMeta x)) = .ok t.columns := by
  have count : m.columns.length = t.columns.length :=
    reported.count.trans made.length_columns.symm
  refine mapM_eq_ok_iff.mpr (List.forall₂_iff_get.mpr ⟨count, ?_⟩)
  intro i hm ht
  obtain ⟨decl, c, -, built, column, reports⟩ :=
    reported.exists_column made (List.getElem?_eq_getElem hm)
  obtain rfl : t.columns[i] = c := Option.some.inj ((List.getElem?_eq_getElem ht).symm.trans built)
  exact inContext_eq_ok_iff.mpr (column_of_reports once column reports)

theorem ReportsAll.exists_role (reported : ReportsAll d r t m) (made : Made d r t)
    (declared : d.columns[i]? = some decl) (held : m.columns[i]? = some x) :
    ∃ c, Reports d r decl c x ∧ c.role = roleOf d t.partitionPlaces i decl := by
  obtain ⟨decl', c, declared', -, column, reports⟩ := reported.exists_column made held
  obtain rfl : decl' = decl := Option.some.inj (declared'.symm.trans declared)
  obtain ⟨type, -, rfl⟩ := exists_of_columnOf column
  exact ⟨_, reports, rfl⟩

theorem ReportsAll.partitionPlaces_eq (reported : ReportsAll d r t m) (made : Made d r t)
    (distinct : (d.columns.map (·.name)).Nodup) (once : d.partitionKey.Nodup) :
    places .partitionKey m.columns = t.partitionPlaces := by
  apply places_of_key distinct made.partition once reported.count
  intro i decl x declared held
  obtain ⟨c, reports, own⟩ := reported.exists_role made declared held
  rw [reports.role]
  refine ⟨?_, reports.partition⟩
  rw [own, roleOf_eq_partitionKey]
  exact mem_places_iff distinct made.partition declared

/-- No name is in both keys, so that a name in the clustering key makes a clustering column. -/
theorem ReportsAll.clusteringPlaces_eq (reported : ReportsAll d r t m) (made : Made d r t)
    (distinct : (d.columns.map (·.name)).Nodup) (once : (d.clusteringKey.map (·.name)).Nodup)
    (apart : ∀ name ∈ d.partitionKey, name ∉ d.clusteringKey.map (·.name)) :
    places .clusteringKey m.columns = t.clusteringPlaces := by
  apply places_of_key distinct made.clustering once reported.count
  intro i decl x declared held
  obtain ⟨c, reports, own⟩ := reported.exists_role made declared held
  rw [reports.role]
  refine ⟨?_, reports.clustering⟩
  rw [own, roleOf_eq_clusteringKey, mem_places_iff distinct made.partition declared]
  constructor
  · exact And.right
  · exact fun member => ⟨fun other => apart _ other member, member⟩

end Agreement

/-- From metadata that reports each column of a declared table, types decoded or as validators, the
same table is built as from the declaration: the same columns, and the same keys in the same order.
-/
theorem ofMeta_eq_ofDecl {d : TableDecl} {r : Registry} {t : Table} {m : TableMeta}
    (built : ofDecl d r = .ok t) (distinct : (d.columns.map (·.name)).Nodup)
    (once : (d.partitionKey ++ d.clusteringKey.map (·.name)).Nodup)
    (reported : ReportsAll d r t m) :
    ∃ u, ofMeta m = .ok u ∧ u.columns = t.columns ∧ u.partitionKey = t.partitionKey ∧
      u.clusteringKey = t.clusteringKey ∧ u.clusteringOrder = t.clusteringOrder := by
  have made := made_of_ofDecl built
  obtain ⟨oncePartition, onceClustering, apart⟩ := List.nodup_append.mp once
  have columns := reported.mapM_columns made onceClustering
  have partition := reported.partitionPlaces_eq made distinct oncePartition
  have clustering := reported.clusteringPlaces_eq made distinct onceClustering
    fun name inner outer => apart name inner name outer rfl
  refine ⟨{ name := m.name, options := Options.ofFields m.fields, columns := t.columns
            partitionPlaces := t.partitionPlaces, clusteringPlaces := t.clusteringPlaces }, ?_,
    rfl, rfl, rfl, rfl⟩
  simp only [ofMeta, columns, partition, clustering, bind, Except.bind, pure, Except.pure]

theorem ofMeta_eq_ofDecl_events :
    let d : TableDecl :=
      { name := "events"
        columns := [⟨"at", "timestamp", false, none⟩, ⟨"day", "varchar", false, none⟩,
          ⟨"tags", "frozen<set<text>>", false, some "by_tag"⟩, ⟨"id", "uuid", false, none⟩]
        partitionKey := ["id", "day"]
        clusteringKey := [⟨"at", .desc⟩]
        options := none }
    let m : TableMeta :=
      { name := "events"
        columns := [
          { name := "at", role := .clusteringKey
            fields := [("validator", .text "ReversedType(TimestampType)")] },
          { name := "day", role := .partitionKey, position := 1, dataType := some (.scalar .varchar)
            fields := [("clustering_order", .text "asc")] },
          { name := "tags", role := .regular
            fields := [("index_name", .text "by_tag"),
              ("validator", .text (Validator.applied true "FrozenType"
                [Validator.applied true "SetType" [Validator.package ++ "UTF8Type"]]))] },
          { name := "id", role := .partitionKey, dataType := some (.scalar .uuid)
            fields := [("clustering_order", .text "asc"), ("validator", .null)] }] }
    ∃ t u, ofDecl d .empty = .ok t ∧ ofMeta m = .ok u ∧ u.columns = t.columns ∧
      u.partitionKey.map (·.name) = ["id", "day"] ∧ u.clusteringKey.map (·.name) = ["at"] ∧
        u.clusteringOrder = [.desc] := by
  intro d m
  let t : Table :=
    { name := "events"
      options := []
      columns := [
        { name := "at", type := some (.scalar .timestamp), role := .clusteringKey
          reversed := true },
        { name := "day", type := some (.scalar .varchar), role := .partitionKey },
        { name := "tags", type := some (.set (.scalar .text)), role := .regular, frozen := true
          indexName := some "by_tag" },
        { name := "id", type := some (.scalar .uuid), role := .partitionKey }]
      partitionPlaces := [3, 1]
      clusteringPlaces := [0] }
  have built : ofDecl d .empty = .ok t := by
    subst d t
    rfl
  have reports : ∀ (i : Nat) (decl : ColumnDecl) (c : Column) (x : ColumnMeta),
      d.columns[i]? = some decl → t.columns[i]? = some c → m.columns[i]? = some x →
        Reports d .empty decl c x := by
    intro i decl c x hd hc hx
    have only {name : String} (other : "at" ≠ name) : Ordered d name .asc :=
      .free (by simpa [d] using other)
    match i with
    | 0 =>
      obtain rfl := Option.some.inj hd
      obtain rfl := Option.some.inj hc
      obtain rfl := Option.some.inj hx
      have written : Validator.text? false ⟨.scalar .timestamp, true, false⟩ =
          some "ReversedType(TimestampType)" := rfl
      exact ⟨rfl, rfl, nofun, fun _ => rfl, rfl, rfl, .scalar .timestamp, .desc, rfl,
        .key (e := ⟨"at", .desc⟩) List.mem_cons_self rfl, .validator (.scalar nofun) written rfl⟩
    | 1 =>
      obtain rfl := Option.some.inj hd
      obtain rfl := Option.some.inj hc
      obtain rfl := Option.some.inj hx
      exact ⟨rfl, rfl, fun _ => rfl, nofun, rfl, rfl, .scalar .varchar, .asc, rfl,
        only (by decide), .decoded rfl rfl rfl rfl⟩
    | 2 =>
      obtain rfl := Option.some.inj hd
      obtain rfl := Option.some.inj hc
      obtain rfl := Option.some.inj hx
      have written : Validator.text? true ⟨.set (.scalar .text), false, true⟩ = some _ := rfl
      exact ⟨rfl, rfl, nofun, nofun, rfl, rfl, .set (.scalar .text), .asc, rfl,
        only (by decide), .validator (.set (.scalar nofun)) written rfl⟩
    | 3 =>
      obtain rfl := Option.some.inj hd
      obtain rfl := Option.some.inj hc
      obtain rfl := Option.some.inj hx
      exact ⟨rfl, rfl, fun _ => rfl, nofun, rfl, rfl, .scalar .uuid, .asc, rfl,
        only (by decide), .decoded rfl rfl rfl rfl⟩
    | _ + 4 => contradiction
  obtain ⟨u, same, columns, partition, clustering, order⟩ :=
    ofMeta_eq_ofDecl built (by decide) (by decide) ⟨rfl, reports⟩
  exact ⟨t, u, built, same, columns, by rw [partition]; rfl, by rw [clustering]; rfl,
    by rw [order]; rfl⟩

end Table

end Cql
