import Cql.Proofs.Outcome
import Cql.Proofs.Registry
import Cql.Schema.Keyspace

namespace Cql

theorem inContext_eq_ok_iff {α : Type} {context : String} {x : Except SchemaFault α} {a : α} :
    inContext context x = .ok a ↔ x = .ok a := by
  cases x <;> simp [inContext]

theorem onValue_eq_ok_iff {α : Type} {x : Except Fault α} {a : α} :
    onValue x = .ok a ↔ x = .ok a := by
  cases x <;> simp [onValue]

def ReadFields (r : Registry) : List FieldDecl → List (String × Ty) → Prop :=
  List.Forall₂ fun d f => d.name = f.1 ∧ r.parse d.type = .ok f.2

section Fields

variable {r r' : Registry} {ds : List FieldDecl} {fields : List (String × Ty)}

theorem mapM_fields_eq_ok_iff {context : FieldDecl → String} :
    ds.mapM (fun d => do
      let t ← inContext (context d) (r.parse d.type)
      return (d.name, t)) = .ok fields ↔ ReadFields r ds fields := by
  rw [mapM_eq_ok_iff]
  have one (d : FieldDecl) (f : String × Ty) :
      (do
        let t ← inContext (context d) (r.parse d.type)
        return (d.name, t)) = .ok f ↔ d.name = f.1 ∧ r.parse d.type = .ok f.2 := by
    rw [bind_eq_ok_iff]
    simp only [inContext_eq_ok_iff, pure, Except.pure, Except.ok.injEq, Prod.ext_iff]
    constructor
    · rintro ⟨t, parsed, name, rfl⟩
      exact ⟨name, parsed⟩
    · rintro ⟨name, parsed⟩
      exact ⟨f.2, parsed, name, rfl⟩
  simp only [one, ReadFields]

theorem ReadFields.parsed (read : ReadFields r ds fields) {f : String × Ty} (hf : f ∈ fields) :
    ∃ text, r.parse text = .ok f.2 := by
  obtain ⟨d, -, -, parsed⟩ := exists_of_forall₂ read hf
  exact ⟨d.type, parsed⟩

theorem ReadFields.extend (read : ReadFields r ds fields) (more : r.Extends r') :
    ReadFields r' ds fields :=
  List.Forall₂.imp (fun _ _ ⟨name, parsed⟩ => ⟨name, more.parse parsed⟩) read

theorem ReadFields.unique {others : List (String × Ty)} (read : ReadFields r ds fields)
    (again : ReadFields r ds others) : fields = others := by
  induction read generalizing others with
  | nil =>
    cases again
    rfl
  | cons first _ ih =>
    cases again with
    | cons first' rest =>
      have same := first.2.symm.trans first'.2
      rw [ih rest, Prod.ext (first.1.symm.trans first'.1) (Except.ok.inj same)]

end Fields

namespace Keyspace

variable {keyspace : String} {r r' : Registry} {u : UserType} {us vs : List UserType}
  {d : UserTypeDecl} {ds : List UserTypeDecl}

theorem declareType_eq_ok_iff :
    declareType keyspace r d = .ok (u, r') ↔
      r.get? keyspace d.name = none ∧
        ∃ fields, ReadFields r d.fields fields ∧ u = ⟨some ⟨some keyspace, d.name⟩, fields⟩ ∧
          r' = (r.register keyspace d.name fields).2 := by
  unfold declareType Registry.contains
  cases known : r.get? keyspace d.name with
  | some v =>
    simp [inContext, throw, throwThe, MonadExceptOf.throw, bind, Except.bind]
  | none =>
    simp only [Option.isSome_none, Bool.false_eq_true, if_false, true_and]
    rw [bind_eq_ok_iff]
    simp only [mapM_fields_eq_ok_iff]
    simp only [pure, Except.pure, Except.ok.injEq, Prod.ext_iff, @eq_comm _ _ u, @eq_comm _ _ r']
    rfl

theorem declareTypes_cons_eq_ok_iff :
    declareTypes keyspace r (d :: ds) = .ok (us, r') ↔
      ∃ u s vs, declareType keyspace r d = .ok (u, s) ∧ declareTypes keyspace s ds = .ok (vs, r') ∧
        us = u :: vs := by
  rw [declareTypes, bind_eq_ok_iff]
  constructor
  · rintro ⟨⟨u, s⟩, first, left⟩
    obtain ⟨⟨vs, t⟩, rest, done⟩ := bind_eq_ok_iff.mp left
    obtain ⟨rfl, rfl⟩ : u :: vs = us ∧ t = r' := by simpa [pure, Except.pure] using done
    exact ⟨u, s, vs, first, rest, rfl⟩
  · rintro ⟨u, s, vs, first, rest, rfl⟩
    exact ⟨(u, s), first, bind_eq_ok_iff.mpr ⟨(vs, r'), rest, rfl⟩⟩

structure Holds (keyspace : String) (r : Registry) (d : UserTypeDecl) (u : UserType) : Prop where
  label : u.label = some ⟨some keyspace, d.name⟩
  held : r.get? keyspace d.name = some u
  fields : ReadFields r d.fields u.fields

section Holds

variable {s : Registry}

theorem Holds.extend (holds : Holds keyspace r d u) (more : r.Extends s) :
    Holds keyspace s d u where
  label := holds.label
  held := more.known holds.held
  fields := holds.fields.extend more

theorem holds_of_declareType (keyed : r.Keyed) (h : declareType keyspace r d = .ok (u, r')) :
    r'.Keyed ∧ r.Extends r' ∧ Holds keyspace r' d u := by
  obtain ⟨new, fields, read, rfl, rfl⟩ := declareType_eq_ok_iff.mp h
  have more := Registry.extends_register keyed new fields
  refine ⟨Registry.keyed_register keyspace d.name fields keyed, more, rfl, ?_, read.extend more⟩
  rw [Registry.get?_register keyed, if_pos rfl]
  rfl

end Holds

/-- What the types `us`, declared in this order, and the registry that holds them owe to each other:
the registry has them all under their names and no others, and the fields of each refer only to
those before it. -/
structure Declared (keyspace : String) (us : List UserType) (r : Registry) : Prop where
  keyed : r.Keyed
  stored : ∀ e ∈ r.types, e.2 ∈ us
  held : ∀ u ∈ us, ∃ name, u.label = some ⟨some keyspace, name⟩ ∧ r.get? keyspace name = some u
  backward : ∀ i u, us[i]? = some u → ∀ f ∈ u.fields, Ty.Names (· ∈ us.take i) f.2

section Declared

theorem Declared.empty (keyspace : String) : Declared keyspace [] (.forKeyspace keyspace) where
  keyed := Registry.keyed_of_nil rfl
  stored := by simp [Registry.forKeyspace]
  held := by simp
  backward := by simp

theorem Declared.names (declared : Declared keyspace us r) {text : String} {t : Ty}
    (h : r.parse text = .ok t) : Ty.Names (· ∈ us) t := by
  have given (stated : Option String) (name : String) (t : Ty)
      (found : r.resolve stated name = some t) : Ty.Names (· ∈ us) t := by
    obtain ⟨place, u, -, known, rfl⟩ := Registry.resolve_eq_some_iff.mp found
    have member : u ∈ us :=
      declared.stored _ ((Registry.get?_eq_some_iff declared.keyed).mp known)
    obtain ⟨i, here⟩ := List.getElem?_of_mem member
    refine Ty.names_user (fun _ => member) fun f hf => ?_
    exact (declared.backward i u here f hf).imp fun v hv => List.mem_of_mem_take hv
  exact (Ty.parseWith_of_given (fun stated name t found => ⟨found, given stated name t found⟩)
    (Registry.parse_eq_ok_iff.mp h)).2

theorem Declared.step (declared : Declared keyspace us r)
    (h : declareType keyspace r d = .ok (u, r')) : Declared keyspace (us ++ [u]) r' := by
  obtain ⟨keyed, more, holds⟩ := holds_of_declareType declared.keyed h
  obtain ⟨-, fields, read, rfl, rfl⟩ := declareType_eq_ok_iff.mp h
  constructor
  · exact keyed
  · intro e he
    rcases Registry.mem_register keyspace d.name fields he with he | rfl
    · exact List.mem_append_left _ (declared.stored e he)
    · exact List.mem_append_right _ (List.mem_singleton.mpr rfl)
  · intro u hu
    rcases List.mem_append.mp hu with hu | hu
    · obtain ⟨name, label, known⟩ := declared.held u hu
      exact ⟨name, label, more.known known⟩
    · obtain rfl := List.mem_singleton.mp hu
      exact ⟨d.name, holds.label, holds.held⟩
  · intro i u here f hf
    rcases Nat.lt_or_ge i us.length with old | last
    · rw [List.getElem?_append_left old] at here
      rw [List.take_append_of_le_length (Nat.le_of_lt old)]
      exact declared.backward i u here f hf
    · rw [List.getElem?_append_right last, List.getElem?_singleton] at here
      obtain ⟨end', rfl⟩ := Option.ite_some_none_eq_some.mp here
      obtain rfl : i = us.length := by omega
      obtain ⟨text, parsed⟩ := read.parsed hf
      rw [List.take_left]
      exact declared.names parsed

theorem Declared.run (declared : Declared keyspace us r)
    (h : declareTypes keyspace r ds = .ok (vs, r')) : Declared keyspace (us ++ vs) r' := by
  induction ds generalizing us vs r with
  | nil =>
    obtain ⟨rfl, rfl⟩ : [] = vs ∧ r = r' := by simpa [declareTypes] using h
    rwa [List.append_nil]
  | cons d ds ih =>
    obtain ⟨u, s, ws, first, rest, rfl⟩ := declareTypes_cons_eq_ok_iff.mp h
    rw [List.append_cons]
    exact ih (declared.step first) rest

end Declared

end Keyspace

end Cql
