import Cql.Schema.Table
import Mathlib.Data.List.Induction
import Mathlib.Data.List.Nodup
import Mathlib.Data.List.TakeWhile

/-!
The options of a table among the fields of its metadata. The loop over the fields keeps, for what it
has read so far, each name that has a value, where it first had one and with the one it had last.
-/

namespace Cql

namespace Assoc

variable {α β : Type} [DecidableEq α] {k : α} {v : β} {entries : List (α × β)}

theorem mem_put (once : (entries.map (·.1)).Nodup) {e : α × β} :
    e ∈ put k v entries ↔ e = (k, v) ∨ e.1 ≠ k ∧ e ∈ entries := by
  induction entries with
  | nil => simp [put]
  | cons first rest ih =>
    obtain ⟨l, u⟩ := first
    obtain ⟨fresh, once⟩ := List.nodup_cons.mp once
    by_cases same : l = k
    · subst same
      have other (member : e ∈ rest) : e.1 ≠ l :=
        fun same => fresh (List.mem_map.mpr ⟨e, member, same⟩)
      rw [put, if_pos rfl]
      grind
    · rw [put, if_neg same]
      grind

theorem put_of_not_mem (fresh : k ∉ entries.map (·.1)) : put k v entries = entries ++ [(k, v)] := by
  induction entries with
  | nil => rfl
  | cons first rest ih =>
    obtain ⟨other, fresh⟩ := not_or.mp (List.mem_cons.not.mp fresh)
    rw [put, if_neg (Ne.symm other), ih fresh, List.cons_append]

theorem ofList_of_nodup (once : (entries.map (·.1)).Nodup) : ofList entries = entries := by
  induction entries using List.reverseRecOn with
  | nil => rfl
  | append_singleton entries e ih =>
    rw [List.map_append, List.nodup_append] at once
    obtain ⟨once, -, apart⟩ := once
    have fresh : e.1 ∉ entries.map (·.1) :=
      fun member => apart e.1 member e.1 (List.mem_singleton_self _) rfl
    unfold ofList at ih ⊢
    rw [List.foldl_concat, ih once, put_of_not_mem fresh]

end Assoc

namespace Options

def before (fields : List (String × Value)) : List (String × Value) :=
  fields.takeWhile fun f => !terminators.contains f.1

def take (options : List (String × Value)) (f : String × Value) : List (String × Value) :=
  if f.2.isNull then options else Assoc.put f.1 f.2 options

def gives (name : String) (f : String × Value) : Bool := f.1 == name && !f.2.isNull

def lastGiven? (fields : List (String × Value)) (name : String) : Option Value :=
  (fields.reverse.find? (gives name)).map (·.2)

/-- The options that fields amount to: each name once, with the last value that it is given, and in
the order in which names are first given one. -/
structure Effective (fields options : List (String × Value)) : Prop where
  once : (options.map (·.1)).Nodup
  last (name : String) (v : Value) : (name, v) ∈ options ↔ lastGiven? fields name = some v
  first : (options.map (·.1)).Pairwise fun a b =>
    fields.findIdx (gives a) < fields.findIdx (gives b)

variable {fields options others : List (String × Value)} {f : String × Value} {name : String}
  {v : Value}

theorem ofFields_eq_foldl : ofFields fields = (before fields).foldl take [] := by
  unfold ofFields Assoc.ofList before
  rw [List.foldl_filter]
  congr
  funext options f
  cases null : f.2.isNull <;> simp [take, null]

theorem gives_iff : gives name f ↔ f.1 = name ∧ f.2.isNull = false := by simp [gives]

theorem lastGiven?_concat :
    lastGiven? (fields ++ [f]) name =
      if gives name f then some f.2 else lastGiven? fields name := by
  unfold lastGiven?
  rw [List.reverse_concat, List.find?_cons]
  cases gives name f <;> rfl

theorem isSome_lastGiven? :
    (lastGiven? fields name).isSome ↔ ∃ f ∈ fields, gives name f := by
  simp [lastGiven?]

theorem findIdx_concat (given : ∃ g ∈ fields, gives name g) :
    (fields ++ [f]).findIdx (gives name) = fields.findIdx (gives name) := by
  rw [List.findIdx_append, if_pos (List.findIdx_lt_length.mpr given)]

namespace Effective

theorem mem_names_iff (effective : Effective fields options) :
    name ∈ options.map (·.1) ↔ ∃ f ∈ fields, gives name f := by
  rw [← isSome_lastGiven?, Option.isSome_iff_exists]
  simp only [List.mem_map, Prod.exists, exists_and_right, exists_eq_right, effective.last]

theorem ordered (effective : Effective fields options) :
    options.Pairwise fun a b => fields.findIdx (gives a.1) < fields.findIdx (gives b.1) := by
  have first := effective.first
  rwa [List.pairwise_map] at first

theorem first_concat (effective : Effective fields options) (f : String × Value) :
    (options.map (·.1)).Pairwise fun a b =>
      (fields ++ [f]).findIdx (gives a) < (fields ++ [f]).findIdx (gives b) := by
  refine effective.first.imp_of_mem fun {a b} ha hb less => ?_
  rwa [findIdx_concat (effective.mem_names_iff.mp ha),
    findIdx_concat (effective.mem_names_iff.mp hb)]

theorem empty : Effective [] [] := ⟨.nil, by simp [lastGiven?], .nil⟩

theorem null (effective : Effective fields options) (null : f.2.isNull) :
    Effective (fields ++ [f]) options := by
  have none (name : String) : gives name f = false := by simp [gives, null]
  refine ⟨effective.once, fun name v => ?_, effective.first_concat f⟩
  rw [effective.last, lastGiven?_concat, none, if_neg Bool.false_ne_true]

theorem put (effective : Effective fields options) (given : f.2.isNull = false) :
    Effective (fields ++ [f]) (Assoc.put f.1 f.2 options) := by
  have gives_iff (name : String) : gives name f ↔ f.1 = name := by simp [gives, given]
  have first : ((Assoc.put f.1 f.2 options).map (·.1)).Pairwise fun a b =>
      (fields ++ [f]).findIdx (gives a) < (fields ++ [f]).findIdx (gives b) := by
    rw [Assoc.keys_put]
    split
    · exact effective.first_concat f
    · -- A name that is new stands at the end, and so does the field that first gives it a value.
      rename_i fresh
      have absent : ¬∃ g ∈ fields, gives f.1 g :=
        fun given => fresh (effective.mem_names_iff.mpr given)
      rw [List.pairwise_append]
      refine ⟨effective.first_concat f, List.pairwise_singleton _ _, fun a ha b hb => ?_⟩
      obtain rfl := List.mem_singleton.mp hb
      have held := effective.mem_names_iff.mp ha
      have bound := List.findIdx_lt_length.mpr held
      rw [findIdx_concat held, List.findIdx_append, if_neg (mt List.findIdx_lt_length.mp absent)]
      omega
  refine ⟨first.imp fun less => ?_, fun name v => ?_, first⟩
  · rintro rfl
    omega
  · rw [Assoc.mem_put effective.once, effective.last, lastGiven?_concat, Prod.mk.injEq]
    by_cases own : f.1 = name
    · rw [if_pos ((gives_iff name).mpr own)]
      grind
    · rw [if_neg (mt (gives_iff name).mp own)]
      grind

theorem take (effective : Effective fields options) (f : String × Value) :
    Effective (fields ++ [f]) (take options f) := by
  unfold Options.take
  cases nullity : f.2.isNull
  · exact effective.put nullity
  · exact effective.null nullity

/-- Fields amount to one list of options only. -/
theorem unique (effective : Effective fields options) (other : Effective fields others) :
    options = others := by
  have perm : options.Perm others := by
    refine (List.perm_ext_iff_of_nodup (.of_map _ effective.once) (.of_map _ other.once)).mpr ?_
    intro o
    rw [effective.last, other.last]
  exact perm.eq_of_pairwise (fun _ _ _ _ less greater => absurd less (Nat.lt_asymm greater))
    effective.ordered other.ordered

theorem foldl (fields : List (String × Value)) : Effective fields (fields.foldl Options.take []) := by
  induction fields using List.reverseRecOn with
  | nil => exact .empty
  | append_singleton fields f ih =>
    rw [List.foldl_concat]
    exact ih.take f

end Effective

theorem effective_ofFields : Effective (before fields) (ofFields fields) := by
  rw [ofFields_eq_foldl]
  exact .foldl _

theorem before_terminated {rest : List (String × Value)} (terminator : f.1 ∈ terminators) :
    before (fields ++ f :: rest) = before fields := by
  induction fields with
  | nil => simp [before, terminator]
  | cons g fields ih =>
    unfold before at ih ⊢
    simp only [List.cons_append, List.takeWhile_cons, ih]

theorem not_null_of_lastGiven? (last : lastGiven? fields name = some v) : v.isNull = false := by
  obtain ⟨f, found, rfl⟩ := Option.map_eq_some_iff.mp last
  exact (gives_iff.mp (List.find?_some found)).2

theorem exists_of_mem_ofFields {o : String × Value} (member : o ∈ ofFields fields) :
    o.1 ∉ terminators ∧ o.2.isNull = false := by
  have given := (effective_ofFields.last o.1 o.2).mp member
  obtain ⟨f, front, gives⟩ := isSome_lastGiven?.mp (Option.isSome_of_eq_some given)
  refine ⟨?_, not_null_of_lastGiven? given⟩
  rw [← (gives_iff.mp gives).1]
  simpa using List.mem_takeWhile_imp front

/-- What is left of fields is left as it is when it is read again. -/
theorem ofFields_ofFields : ofFields (ofFields fields) = ofFields fields := by
  have front : (ofFields fields).takeWhile (fun f => !terminators.contains f.1) =
      ofFields fields := by
    rw [List.takeWhile_eq_self_iff]
    intro o member
    simpa using (exists_of_mem_ofFields member).1
  have given : (ofFields fields).filter (fun f => !f.2.isNull) = ofFields fields := by
    rw [List.filter_eq_self]
    intro o member
    simpa using (exists_of_mem_ofFields member).2
  calc
    _ = Assoc.ofList (ofFields fields) := by rw [ofFields, front, given]
    _ = ofFields fields := Assoc.ofList_of_nodup effective_ofFields.once

/-- The options of a table are what the fields in front of the first terminator amount to, and
nothing else is. So what follows a terminator does not count, and options are read as they are. -/
theorem ofFields_eq_iff (fields : List (String × Value)) :
    (∀ options, options = ofFields fields ↔ Effective (before fields) options) ∧
      (∀ front terminator rest, terminator.1 ∈ terminators → fields = front ++ terminator :: rest →
        ofFields fields = ofFields front) ∧
      ofFields (ofFields fields) = ofFields fields := by
  refine ⟨fun options => ⟨?_, fun effective => effective.unique effective_ofFields⟩, ?_,
    ofFields_ofFields⟩
  · rintro rfl
    exact effective_ofFields
  · rintro front terminator rest ends rfl
    rw [ofFields_eq_foldl, ofFields_eq_foldl, before_terminated ends]

example :
    ofFields [("a", .null), ("b", .bool true), ("a", .text "x"), ("b", .null), ("b", .bool false),
      ("table_name", .text "t"), ("a", .text "y")] = [("b", .bool false), ("a", .text "x")] := by
  rfl

end Options

end Cql
