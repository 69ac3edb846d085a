import Cql.Proofs.Ty.Decomposition
import Cql.Schema.Function

/-!
What a signature says of its function. The last opening parenthesis ends the name, whatever the name
is, as there is none in the text of a type; and the texts of the types behind it are told apart. So
to look a function up by its signature is to look it up by its name and the types of its arguments.
-/

namespace Cql

open Registry (Named Writes)

section Signature

variable {r : Registry} {name name' : String} {arguments arguments' : List Ty}

theorem toList_signature (name : String) (arguments : List Ty) :
    (signature name arguments).toList =
      name.toList ++ '(' :: ([','].intercalate (arguments.map (·.text.toList)) ++ [')']) := by
  simp [signature, Function.comp_def]

theorem name_eq_of_signature (same : signature name arguments = signature name' arguments) :
    name = name' := by
  have texts := congrArg String.toList same
  rw [toList_signature, toList_signature] at texts
  exact String.toList_injective (List.append_cancel_right texts)

theorem parenthesis_not_mem_arguments (named : Named r)
    (writes : ∀ t ∈ arguments, Writes r t) :
    '(' ∉ [','].intercalate (arguments.map (·.text.toList)) ++ [')'] := by
  have within : '(' ∉ [','].intercalate (arguments.map (·.text.toList)) :=
    not_mem_intercalate (by decide) <| List.forall_mem_map.mpr fun t ht =>
      Registry.parenthesis_not_mem_text named (writes t ht)
  simpa using within

theorem arguments_eq_of_texts (named : Named r) (writes : ∀ t ∈ arguments, Writes r t)
    (writes' : ∀ t ∈ arguments', Writes r t)
    (same : [','].intercalate (arguments.map (·.text.toList)) =
      [','].intercalate (arguments'.map (·.text.toList))) :
    arguments = arguments' := by
  have opens (t : Ty) (ht : t ∈ arguments ∨ t ∈ arguments') :
      ∃ c ∈ t.text.toList.head?, Ty.endsType c = false :=
    Registry.exists_head_of_part named (.element (ht.elim (writes t) (writes' t)))
  have comma : Ty.endsType ',' := rfl
  have last : ∀ c ∈ ([] : List Char).head?, Ty.endsType c ∧ c ≠ ',' := nofun
  exact (determines_intercalate comma
    (fun t ht => Registry.determines_text named (writes t ht)) writes' opens last last
    (congrArg (· ++ []) same)).1

theorem eq_of_signature (named : Named r) (writes : ∀ t ∈ arguments, Writes r t)
    (writes' : ∀ t ∈ arguments', Writes r t)
    (same : signature name arguments = signature name' arguments') :
    name = name' ∧ arguments = arguments' := by
  have texts := congrArg String.toList same
  rw [toList_signature, toList_signature] at texts
  obtain ⟨names, types⟩ := split_at_mark (.inr (parenthesis_not_mem_arguments named writes'))
    (.inr (parenthesis_not_mem_arguments named writes)) texts
  exact ⟨String.toList_injective names,
    arguments_eq_of_texts named writes writes' (List.append_cancel_right types)⟩

end Signature

section Lookup

variable {r : Registry} {functions : List Function} {name : String} {arguments : List Ty}

theorem signature_eq_iff (named : Named r) {f : Function}
    (own : ∀ t ∈ f.argumentTypes, Writes r t) (writes : ∀ t ∈ arguments, Writes r t) :
    f.signature = signature name arguments ↔ f.name = name ∧ f.argumentTypes = arguments := by
  constructor
  · exact eq_of_signature named own writes
  · rintro ⟨rfl, rfl⟩
    rfl

/-- A function is found by its signature where it is found by its name and the types that it takes.
-/
theorem lookup_eq_ok_iff (named : Named r)
    (own : ∀ f ∈ functions, ∀ t ∈ f.argumentTypes, Writes r t)
    (writes : ∀ t ∈ arguments, Writes r t) {f : Function} :
    Aggregate.lookup functions name arguments = .ok f ↔
      functions.find? (fun f => f.name = name ∧ f.argumentTypes = arguments) = some f := by
  have same : functions.find? (·.signature == signature name arguments) =
      functions.find? fun f => f.name = name ∧ f.argumentTypes = arguments := by
    apply List.find?_congr
    intro f hf
    rw [Bool.eq_iff_iff, beq_iff_eq, decide_eq_true_iff]
    exact signature_eq_iff named (own f hf) writes
  unfold Aggregate.lookup
  rw [same]
  cases functions.find? fun f => decide (f.name = name ∧ f.argumentTypes = arguments) with
  | none => exact ⟨nofun, nofun⟩
  | some g => rw [Except.ok.injEq, Option.some.injEq]

/-- Signatures of functions, whatever their names are, differ where their names or the types of
their arguments do, if these are made up of types now in a registry in which all keyspaces and names
are bare. No function is then taken for another one when it is looked up by signature. -/
theorem signature_injective (new : r.types = []) {registrations : List Registry.Registration}
    (names : ∀ c ∈ registrations, Ty.BareName c.keyspace ∧ Ty.BareName c.name) :
    (∀ (name name' : String) (arguments arguments' : List Ty),
      (∀ t ∈ arguments, Writes (r.registerAll registrations) t) →
      (∀ t ∈ arguments', Writes (r.registerAll registrations) t) →
      signature name arguments = signature name' arguments' →
        name = name' ∧ arguments = arguments') ∧
    ∀ functions : List Function,
      (∀ f ∈ functions, ∀ t ∈ f.argumentTypes, Writes (r.registerAll registrations) t) →
      ∀ (name : String) (arguments : List Ty) (f : Function),
      (∀ t ∈ arguments, Writes (r.registerAll registrations) t) →
        (Aggregate.lookup functions name arguments = .ok f ↔
          functions.find? (fun f => f.name = name ∧ f.argumentTypes = arguments) = some f) := by
  have named := Registry.named_registerAll new names
  constructor
  · intro name name' arguments arguments' writes writes' same
    exact eq_of_signature named writes writes' same
  · intro functions own name arguments f writes
    exact lookup_eq_ok_iff named own writes

theorem signature_injective_overloads :
    let registrations : List Registry.Registration :=
      [⟨"int", "t", []⟩, ⟨"list", "t", []⟩, ⟨"Int", "T", [("x", .scalar .text)]⟩]
    let t : UserType := ⟨some ⟨some "Int", "T"⟩, [("x", .scalar .text)]⟩
    let u : UserType := ⟨some ⟨some "list", "t"⟩, []⟩
    let pair (a b : Ty) : Ty := .map a (.tuple [b])
    let f (name : String) (types : List Ty) : Function :=
      ⟨name, types.map (("x", ·)), .scalar .int, none, none, false⟩
    let functions := [f "f(int" [t.ty], f "f" [.scalar .int, t.ty], f "f" [pair t.ty t.ty],
      f "f" [pair t.ty u.ty]]
    let r := Registry.empty.registerAll registrations
    r.types = [("int.t", t), ("list.t", u)] ∧
      signature "f(int" [t.ty] ≠ signature "f" [.scalar .int, t.ty] ∧
        Aggregate.lookup functions "f" [pair t.ty u.ty] = .ok (f "f" [pair t.ty u.ty]) := by
  intro registrations t u pair f functions r
  have names : ∀ c ∈ registrations, Ty.BareName c.keyspace ∧ Ty.BareName c.name := by decide
  have types : r.types = [("int.t", t), ("list.t", u)] := rfl
  have first : Writes r t.ty := .registered (e := ("int.t", t)) (types ▸ List.mem_cons_self)
  have second : Writes r u.ty :=
    .registered (e := ("list.t", u)) (types ▸ List.mem_cons_of_mem _ List.mem_cons_self)
  have paired {a b : Ty} (one : Writes r a) (other : Writes r b) : Writes r (pair a b) :=
    .map one (.tuple (List.forall_mem_singleton.mpr other))
  have scalar : Writes r (.scalar .int) := .scalar .int
  have new : Registry.empty.types = [] := rfl
  obtain ⟨injective, found⟩ := signature_injective new names
  have takes (name : String) (ts : List Ty) : (f name ts).argumentTypes = ts := by
    simp [f, Function.argumentTypes, Function.comp_def]
  have own : ∀ f ∈ functions, ∀ t ∈ f.argumentTypes, Writes r t := by
    simp only [functions, List.forall_mem_cons, takes]
    exact ⟨⟨first, nofun⟩, ⟨scalar, first, nofun⟩, ⟨paired first first, nofun⟩,
      ⟨paired first second, nofun⟩, nofun⟩
  refine ⟨types, fun same => ?_, ?_⟩
  · have names := injective _ _ _ _ (List.forall_mem_singleton.mpr first)
      (List.forall_mem_cons.mpr ⟨scalar, List.forall_mem_singleton.mpr first⟩) same
    exact absurd names.1 (by decide)
  · exact (found functions own _ _ _ (List.forall_mem_singleton.mpr (paired first second))).mpr rfl

end Lookup

end Cql
