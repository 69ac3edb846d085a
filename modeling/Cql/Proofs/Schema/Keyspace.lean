import Cql.Proofs.Schema.Declared

namespace Cql

def Registry.Reads (r : Registry) (t : Ty) : Prop := ∃ text, r.parse text = .ok t

section Parts

variable {r : Registry}

theorem Table.reads_of_columnOf {d : TableDecl} {places : List Nat} {decl : ColumnDecl} {i : Nat}
    {c : Column} (h : columnOf d r places decl i = .ok c) : ∃ t, r.Reads t ∧ c.type = some t := by
  unfold columnOf at h
  obtain ⟨t, parsed, left⟩ := bind_eq_ok_iff.mp h
  refine ⟨t, ⟨decl.type, inContext_eq_ok_iff.mp parsed⟩, ?_⟩
  dsimp only at left
  split at left
  · contradiction
  · obtain rfl := Except.ok.inj left
    rfl

theorem Table.reads_of_ofDecl {d : TableDecl} {t : Table} (h : Table.ofDecl d r = .ok t)
    {c : Column} (hc : c ∈ t.columns) : ∃ t, r.Reads t ∧ c.type = some t := by
  unfold Table.ofDecl at h
  obtain ⟨places, -, left⟩ := bind_eq_ok_iff.mp h
  obtain ⟨columns, made, done⟩ := bind_eq_ok_iff.mp left
  obtain rfl := Except.ok.inj done
  obtain ⟨⟨decl, i⟩, -, column⟩ := exists_of_mapM made hc
  exact reads_of_columnOf column

theorem Function.reads_of_ofDecl {d : FunctionDecl} {f : Function}
    (h : Function.ofDecl d r = .ok f) : (∀ a ∈ f.arguments, r.Reads a.2) ∧ r.Reads f.returns := by
  unfold Function.ofDecl at h
  obtain ⟨arguments, first, left⟩ := bind_eq_ok_iff.mp h
  obtain ⟨returns, second, done⟩ := bind_eq_ok_iff.mp left
  obtain rfl := Except.ok.inj done
  refine ⟨fun a ha => (mapM_fields_eq_ok_iff.mp first).parsed ha, d.returns, ?_⟩
  exact inContext_eq_ok_iff.mp second

namespace Aggregate

variable {a b : Aggregate} {d : AggregateDecl} {functions : List Function}

theorem build_eq_ok_iff {name : String} {arguments : List Ty} {state : Ty}
    {stateFunction : Function} {finalFunction : Option Function} :
    build name arguments state stateFunction finalFunction = .ok a ↔
      (stateFunction.argumentTypes = state :: arguments ∧
        ∀ f ∈ finalFunction, f.argumentTypes = [state]) ∧
      { name, argumentTypes := arguments, stateType := state, stateFunction, finalFunction } = a := by
  unfold build
  by_cases taken : stateFunction.argumentTypes = state :: arguments
  · cases finalFunction with
    | none => simp [taken, pure, Except.pure]
    | some f =>
      by_cases alone : f.argumentTypes = [state] <;>
        simp [taken, alone, pure, Except.pure, bind, Except.bind, throw, throwThe,
          MonadExceptOf.throw]
  · simp [taken, bind, Except.bind, throw, throwThe, MonadExceptOf.throw]

theorem withInitialCondition_eq_ok_iff {v : Value} :
    a.withInitialCondition v = .ok b ↔
      ∃ w, a.stateType.coerce v = .ok w ∧ { a with initialCondition := some w } = b := by
  simp only [withInitialCondition, bind_eq_ok_iff, inContext_eq_ok_iff, onValue_eq_ok_iff, pure,
    Except.pure, Except.ok.injEq]

theorem found_of_lookup {name : String} {arguments : List Ty} {f : Function}
    (h : lookup functions name arguments = .ok f) :
    f ∈ functions ∧ f.signature = Cql.signature name arguments := by
  unfold lookup at h
  split at h
  · rename_i found
    obtain rfl := Except.ok.inj h
    have same := List.find?_some found
    exact ⟨List.mem_of_find?_eq_some found, beq_iff_eq.mp same⟩
  · contradiction

/-- What an aggregate is made of: types that are read, functions that are looked up and take these
types, and a literal that is read and stored as a state. -/
structure Made (d : AggregateDecl) (r : Registry) (functions : List Function)
    (a : Aggregate) : Prop where
  name : d.name = a.name
  arguments : List.Forall₂ (fun text t => r.parse text = .ok t) d.arguments a.argumentTypes
  state : r.parse d.stateType = .ok a.stateType
  stateFunction :
    lookup functions d.stateFunction (a.stateType :: a.argumentTypes) = .ok a.stateFunction
  takes : a.stateFunction.argumentTypes = a.stateType :: a.argumentTypes
  finalFunction : Option.Rel (fun name f => lookup functions name [a.stateType] = .ok f ∧
    f.argumentTypes = [a.stateType]) d.finalFunction a.finalFunction
  initialCondition : Option.Rel (fun literal w => ∃ v, a.stateType.parseLiteral literal = .ok v ∧
    a.stateType.coerce v = .ok w) d.initialCondition a.initialCondition

theorem ofDecl_eq_ok_iff : Aggregate.ofDecl d r functions = .ok a ↔ Made d r functions a := by
  unfold Aggregate.ofDecl
  simp only [bind_eq_ok_iff, inContext_eq_ok_iff, option_mapM_eq_ok_iff, mapM_eq_ok_iff,
    build_eq_ok_iff]
  constructor
  · rintro ⟨arguments, first, state, second, stateFunction, third, finalFunction, fourth, b,
      ⟨⟨takes, alone⟩, rfl⟩, left⟩
    have final := option_rel_and_iff.mpr ⟨fourth, alone⟩
    split at left
    · rename_i literal given
      obtain ⟨v, read, set⟩ := bind_eq_ok_iff.mp left
      obtain ⟨w, stored, rfl⟩ := withInitialCondition_eq_ok_iff.mp set
      have value := onValue_eq_ok_iff.mp (inContext_eq_ok_iff.mp read)
      exact ⟨rfl, first, second, third, takes, final, given ▸ .some ⟨v, value, stored⟩⟩
    · rename_i given
      obtain rfl := Except.ok.inj left
      exact ⟨rfl, first, second, third, takes, final, given ▸ .none⟩
  · rintro ⟨name, first, second, third, takes, final, initial⟩
    obtain ⟨fourth, alone⟩ := option_rel_and_iff.mp final
    refine ⟨_, first, _, second, _, third, _, fourth, { a with initialCondition := none },
      ⟨⟨takes, alone⟩, by rw [name]⟩, ?_⟩
    generalize d.initialCondition = literal, start : a.initialCondition = state at initial
    cases initial with
    | none => exact congrArg Except.ok (by rw [← start])
    | some stored =>
      obtain ⟨v, read, stored⟩ := stored
      refine bind_eq_ok_iff.mpr ⟨v, inContext_eq_ok_iff.mpr (onValue_eq_ok_iff.mpr read), ?_⟩
      exact withInitialCondition_eq_ok_iff.mpr ⟨_, stored, by rw [← start]⟩

theorem reads_of_ofDecl (h : Aggregate.ofDecl d r functions = .ok a) :
    (∀ t ∈ a.argumentTypes, r.Reads t) ∧ r.Reads a.stateType ∧
      ∀ f ∈ a.finalFunction, f ∈ functions := by
  have made := ofDecl_eq_ok_iff.mp h
  refine ⟨fun t ht => ?_, ⟨d.stateType, made.state⟩, fun f hf => ?_⟩
  · obtain ⟨text, -, parsed⟩ := exists_of_forall₂ made.arguments ht
    exact ⟨text, parsed⟩
  · obtain ⟨name, -, found, -⟩ := exists_of_option_rel made.finalFunction hf
    exact (found_of_lookup found).1

end Aggregate

end Parts

namespace Keyspace

theorem ofDecl_eq_ok_iff {d : KeyspaceDecl} {k : Keyspace} :
    ofDecl d = .ok k ↔
      declareTypes d.name (.forKeyspace d.name) d.types = .ok (k.userTypes, k.registry) ∧
        d.tables.mapM (Table.ofDecl · k.registry) = .ok k.tables ∧
          d.functions.mapM (Function.ofDecl · k.registry) = .ok k.functions ∧
            d.aggregates.mapM (Aggregate.ofDecl · k.registry k.functions) = .ok k.aggregates ∧
              d.name = k.name := by
  unfold ofDecl
  simp only [bind_eq_ok_iff, inContext_eq_ok_iff, pure, Except.pure, Except.ok.injEq]
  constructor
  · rintro ⟨⟨us, r⟩, declared, tables, first, functions, second, aggregates, third, rfl⟩
    exact ⟨declared, first, second, third, rfl⟩
  · rintro ⟨declared, first, second, third, same⟩
    refine ⟨(k.userTypes, k.registry), declared, _, first, _, second, _, third, ?_⟩
    rw [same]

/-- The types that the tables, functions and aggregates of a keyspace are made with. -/
inductive Uses (k : Keyspace) : Ty → Prop
  | column {t : Table} {c : Column} {type : Ty} (table : t ∈ k.tables) (column : c ∈ t.columns)
      (typed : c.type = some type) : Uses k type
  | argument {f : Function} {a : String × Ty} (function : f ∈ k.functions)
      (argument : a ∈ f.arguments) : Uses k a.2
  | returns {f : Function} (function : f ∈ k.functions) : Uses k f.returns
  | taken {a : Aggregate} {t : Ty} (aggregate : a ∈ k.aggregates) (argument : t ∈ a.argumentTypes) :
      Uses k t
  | state {a : Aggregate} (aggregate : a ∈ k.aggregates) : Uses k a.stateType
  | result {a : Aggregate} (aggregate : a ∈ k.aggregates) : Uses k a.returns

variable {d : KeyspaceDecl} {k : Keyspace} {t : Ty}

theorem reads_of_uses (built : ofDecl d = .ok k) (uses : k.Uses t) : k.registry.Reads t := by
  obtain ⟨-, tables, functions, aggregates, -⟩ := ofDecl_eq_ok_iff.mp built
  cases uses with
  | column table column typed =>
    obtain ⟨decl, -, made⟩ := exists_of_mapM tables table
    obtain ⟨t', reads, typed'⟩ := Table.reads_of_ofDecl made column
    obtain rfl := Option.some.inj (typed'.symm.trans typed)
    exact reads
  | argument function argument =>
    obtain ⟨decl, -, made⟩ := exists_of_mapM functions function
    exact (Function.reads_of_ofDecl made).1 _ argument
  | returns function =>
    obtain ⟨decl, -, made⟩ := exists_of_mapM functions function
    exact (Function.reads_of_ofDecl made).2
  | taken aggregate argument =>
    obtain ⟨decl, -, made⟩ := exists_of_mapM aggregates aggregate
    exact (Aggregate.reads_of_ofDecl made).1 _ argument
  | state aggregate =>
    obtain ⟨decl, -, made⟩ := exists_of_mapM aggregates aggregate
    exact (Aggregate.reads_of_ofDecl made).2.1
  | @result a aggregate =>
    obtain ⟨decl, -, made⟩ := exists_of_mapM aggregates aggregate
    obtain ⟨-, state, final⟩ := Aggregate.reads_of_ofDecl made
    unfold Aggregate.returns
    split
    · rename_i f given
      obtain ⟨decl, -, made⟩ := exists_of_mapM functions (final f given)
      exact (Function.reads_of_ofDecl made).2
    · exact state

theorem declared_of_ofDecl (built : ofDecl d = .ok k) :
    Declared k.name k.userTypes k.registry := by
  obtain ⟨declared, -, -, -, same⟩ := ofDecl_eq_ok_iff.mp built
  rw [← same]
  exact (Declared.empty d.name).run declared

/-- A keyspace that has been built has no cycles among its user types, and refers to no type that it
does not hold. Every user type with a name that occurs in the fields of one of its user types, at
any depth, is a user type declared before that one; and every such type that occurs in the type of a
column, or in a type of a function or an aggregate, is a user type of the keyspace, which its
registry has under its name. -/
theorem ofDecl_closed (built : ofDecl d = .ok k) :
    (∀ (i : Nat) (u : UserType), k.userTypes[i]? = some u →
      ∀ f ∈ u.fields, ∀ v : UserType, Ty.Occurs v f.2 → v.label.isSome →
        ∃ j < i, k.userTypes[j]? = some v) ∧
    ∀ t, k.Uses t → ∀ v : UserType, Ty.Occurs v t → v.label.isSome →
      v ∈ k.userTypes ∧ ∃ keyspace name, v.label = some ⟨some keyspace, name⟩ ∧
        k.registry.get? keyspace name = some v := by
  have declared := declared_of_ofDecl built
  constructor
  · intro i u here f hf v occurs named
    obtain ⟨j, held⟩ := List.getElem?_of_mem (declared.backward i u here f hf v occurs named)
    rw [List.getElem?_take] at held
    split at held
    · exact ⟨j, ‹j < i›, held⟩
    · contradiction
  · intro t uses v occurs named
    obtain ⟨text, parsed⟩ := reads_of_uses built uses
    have member := declared.names parsed v occurs named
    obtain ⟨name, label, held⟩ := declared.held v member
    exact ⟨member, k.name, name, label, held⟩

theorem ofDecl_closed_shop :
    let address : UserType := ⟨some ⟨some "shop", "address"⟩, [("zip", .scalar .int)]⟩
    let customer : UserType := ⟨some ⟨some "shop", "customer"⟩, [("homes", .list address.ty)]⟩
    let d : KeyspaceDecl :=
      { name := "shop"
        types := [⟨"address", [⟨"zip", "int"⟩]⟩,
          ⟨"customer", [⟨"homes", "list<frozen<Address>>"⟩]⟩]
        tables := []
        functions :=
          [⟨"busiest", [⟨"all", "set<frozen<\"Shop\".customer>>"⟩], "address", none, none, false⟩]
        aggregates := [] }
    ∃ k, ofDecl d = .ok k ∧ k.userTypes = [address, customer] ∧
      (∃ j < 1, k.userTypes[j]? = some address) ∧ k.Uses (.set customer.ty) ∧
        ∃ keyspace name, customer.label = some ⟨some keyspace, name⟩ ∧
          k.registry.get? keyspace name = some customer := by
  intro address customer d
  have built : ∃ k, ofDecl d = .ok k ∧ k.userTypes = [address, customer] ∧
      k.functions = [⟨"busiest", [("all", .set customer.ty)], address.ty, none, none, false⟩] := by
    subst d customer address
    exact ⟨_, rfl, rfl, rfl⟩
  obtain ⟨k, built, types, functions⟩ := built
  have uses : k.Uses (.set customer.ty) :=
    .argument (functions ▸ List.mem_singleton_self _) List.mem_cons_self
  refine ⟨k, built, types, ?_, uses, ?_⟩
  · exact (ofDecl_closed built).1 1 customer (by rw [types]; rfl) ("homes", .list address.ty)
      List.mem_cons_self address (.list .self) rfl
  · exact ((ofDecl_closed built).2 _ uses customer (.set .self) rfl).2

end Keyspace

end Cql
