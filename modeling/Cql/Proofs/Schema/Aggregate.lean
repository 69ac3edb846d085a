import Cql.Proofs.Literal.WellTyped
import Cql.Proofs.Schema.Signature

/-!
Aggregates and their functions. An aggregate of a keyspace folds with the functions that its
declaration names, and these take the types that the fold hands to them. What the state function
gives back is not looked at: the state after a row is of the state type only if the function has it
as its return type.
-/

namespace Cql

structure Function.Serves (functions : List Function) (name : String) (types : List Ty)
    (f : Function) : Prop where
  listed : f ∈ functions
  name : f.name = name
  takes : f.argumentTypes = types

def Function.resultType? (f : Function) (given : List Ty) : Option Ty :=
  if f.argumentTypes = given then some f.returns else none

theorem Function.resultType?_eq_some_iff {f : Function} {given : List Ty} {t : Ty} :
    f.resultType? given = some t ↔ f.argumentTypes = given ∧ f.returns = t := by
  simp [resultType?]

namespace Aggregate

section Wiring

variable {r : Registry} {functions : List Function} {d : AggregateDecl} {a : Aggregate}

/-- The aggregate is wired as its declaration says, with functions that serve it and with a state to
start from that is kept as it is. -/
structure Wired (r : Registry) (functions : List Function) (d : AggregateDecl)
    (a : Aggregate) : Prop where
  name : d.name = a.name
  arguments : List.Forall₂ (fun text t => r.parse text = .ok t) d.arguments a.argumentTypes
  state : r.parse d.stateType = .ok a.stateType
  stateFunction :
    a.stateFunction.Serves functions d.stateFunction (a.stateType :: a.argumentTypes)
  finalFunction : Option.Rel (fun name (f : Function) => f.Serves functions name [a.stateType])
    d.finalFunction a.finalFunction
  initialCondition : Option.Rel (fun literal v => a.stateType.parseLiteral literal = .ok v ∧
    a.stateType.accepts v ∧ a.stateType.coerce v = .ok v) d.initialCondition a.initialCondition

/-- Functions are looked up by text. That the types are the same as well leaves the name as the rest
of the text. -/
theorem serves_of_lookup {name : String} {types : List Ty} {f : Function}
    (found : lookup functions name types = .ok f) (takes : f.argumentTypes = types) :
    f.Serves functions name types := by
  obtain ⟨listed, same⟩ := found_of_lookup found
  rw [← takes] at same
  exact ⟨listed, name_eq_of_signature same, takes⟩

theorem Made.wired (made : Made d r functions a) : Wired r functions d a where
  name := made.name
  arguments := made.arguments
  state := made.state
  stateFunction := serves_of_lookup made.stateFunction made.takes
  finalFunction := option_rel_imp (fun _ _ ⟨found, takes⟩ => serves_of_lookup found takes)
    made.finalFunction
  initialCondition := by
    refine option_rel_imp (fun literal w ⟨v, read, stored⟩ => ?_) made.initialCondition
    obtain rfl : v = w := Except.ok.inj ((Ty.fits_of_parseLiteral read).symm.trans stored)
    exact ⟨read, Ty.accepts_of_coerce stored, stored⟩

end Wiring

section Folding

variable {a : Aggregate} {n : Nat}

/-- The type of the state after so many rows, if the state function takes the state before each of
them together with the values of the row. -/
def stateTypeAfter? (a : Aggregate) : Nat → Option Ty
  | 0 => some a.stateType
  | n + 1 => do a.stateFunction.resultType? ((← a.stateTypeAfter? n) :: a.argumentTypes)

/-- The type of the result of so many rows, if the last state is one that the final function takes.
-/
def foldType? (a : Aggregate) (n : Nat) : Option Ty := do
  let state ← a.stateTypeAfter? n
  match a.finalFunction with
  | some f => f.resultType? [state]
  | none => some state

theorem stateTypeAfter?_succ_eq_some_iff {t : Ty} :
    a.stateTypeAfter? (n + 1) = some t ↔
      (∃ s, a.stateTypeAfter? n = some s ∧ a.stateFunction.argumentTypes = s :: a.argumentTypes) ∧
        a.stateFunction.returns = t := by
  rw [stateTypeAfter?]
  simp only [Option.bind_eq_bind, Option.bind_eq_some_iff, Function.resultType?_eq_some_iff]
  constructor
  · rintro ⟨s, before, takes, returns⟩
    exact ⟨⟨s, before, takes⟩, returns⟩
  · rintro ⟨⟨s, before, takes⟩, returns⟩
    exact ⟨s, before, takes, returns⟩

variable (takes : a.stateFunction.argumentTypes = a.stateType :: a.argumentTypes)
include takes

/-- A row keeps the state type if the state function gives it back. -/
theorem stateTypeAfter?_of_returns (returns : a.stateFunction.returns = a.stateType) (n : Nat) :
    a.stateTypeAfter? n = some a.stateType := by
  induction n with
  | zero => rfl
  | succ n ih => exact stateTypeAfter?_succ_eq_some_iff.mpr ⟨⟨_, ih, takes⟩, returns⟩

theorem stateTypeAfter?_eq_iff :
    a.stateTypeAfter? n = some a.stateType ↔ n = 0 ∨ a.stateFunction.returns = a.stateType := by
  constructor
  · intro typed
    cases n with
    | zero => exact .inl rfl
    | succ n => exact .inr (stateTypeAfter?_succ_eq_some_iff.mp typed).2
  · rintro (rfl | returns)
    · rfl
    · exact stateTypeAfter?_of_returns takes returns n

/-- The second row finds a state that the function does not take. -/
theorem stateTypeAfter?_of_not_returns (other : a.stateFunction.returns ≠ a.stateType) (n : Nat) :
    a.stateTypeAfter? (n + 2) = none := by
  by_contra typed
  obtain ⟨t, typed⟩ := Option.ne_none_iff_exists'.mp typed
  obtain ⟨⟨s, first, second⟩, -⟩ := stateTypeAfter?_succ_eq_some_iff.mp typed
  obtain ⟨-, rfl⟩ := stateTypeAfter?_succ_eq_some_iff.mp first
  exact other (List.cons.inj (second.symm.trans takes)).1

theorem foldType?_eq_iff (alone : ∀ f ∈ a.finalFunction, f.argumentTypes = [a.stateType]) :
    a.foldType? n = some a.returns ↔ n = 0 ∨ a.stateFunction.returns = a.stateType := by
  rw [← stateTypeAfter?_eq_iff takes]
  unfold foldType? returns
  cases final : a.finalFunction with
  | none => simp
  | some f =>
    -- As it takes the state type alone, the last state has to be of that type.
    simp only [Option.bind_eq_bind, Option.bind_eq_some_iff, Function.resultType?_eq_some_iff,
      alone f final, List.cons.injEq, and_true]
    constructor
    · rintro ⟨s, typed, rfl⟩
      exact typed
    · exact fun typed => ⟨_, typed, rfl⟩

omit takes

/-- The fold of an aggregate that has been accepted is well typed, and has the return type of the
aggregate as its result, if there are no rows or if the state function gives the state type back.
Nothing checks the latter: where it fails, the result of one row is not of that type, and a second
row is a state that the state function does not take. -/
theorem build_folds_iff {name : String} {arguments : List Ty} {state : Ty}
    {stateFunction : Function} {finalFunction : Option Function}
    (built : build name arguments state stateFunction finalFunction = .ok a) :
    (∀ n, a.foldType? n = some a.returns ↔ n = 0 ∨ stateFunction.returns = state) ∧
      (stateFunction.returns ≠ state → ∀ n, a.foldType? (n + 2) = none) := by
  obtain ⟨⟨takes, alone⟩, rfl⟩ := build_eq_ok_iff.mp built
  constructor
  · intro n
    exact foldType?_eq_iff takes alone
  · intro other n
    unfold foldType?
    rw [stateTypeAfter?_of_not_returns takes other n]
    rfl

theorem build_folds_average :
    let state : Ty := .tuple [.scalar .int, .scalar .bigint]
    let add : Function :=
      ⟨"add", [("s", state), ("x", .scalar .int), ("why", .scalar .text)], state, none, none, false⟩
    let divide : Function := ⟨"divide", [("s", state)], .scalar .double, none, none, false⟩
    ∃ a, build "average" [.scalar .int, .scalar .text] state add (some divide) = .ok a ∧
      a.foldType? 1000000 = some (.scalar .double) := by
  intro state add divide
  have built : build "average" [.scalar .int, .scalar .text] state add (some divide) =
      .ok ⟨"average", [.scalar .int, .scalar .text], state, add, some divide, none⟩ := rfl
  exact ⟨_, built, ((build_folds_iff built).1 1000000).mpr (.inr rfl)⟩

/-- A state function that turns a number and a number into a text is accepted. -/
theorem build_folds_not_typed :
    let describe : Function :=
      ⟨"describe", [("s", .scalar .int), ("x", .scalar .int)], .scalar .text, none, none, false⟩
    ∃ a, build "a" [.scalar .int] (.scalar .int) describe none = .ok a ∧
      a.stateFunction.returns ≠ a.stateType ∧ a.returns = .scalar .int ∧
        a.foldType? 1 = some (.scalar .text) ∧ ¬ ∀ n, a.foldType? n = some a.returns := by
  intro describe
  refine ⟨⟨"a", [.scalar .int], .scalar .int, describe, none, none⟩, rfl, by decide, rfl, rfl, ?_⟩
  intro typed
  exact absurd (typed 2) (by decide)

end Folding

end Aggregate

namespace Keyspace

/-- Every aggregate of a keyspace that has been built is wired as it is declared. Its state function
is one of the functions of the keyspace, has the name that is configured, and takes the state type
and then the types of the arguments, not only types with the same texts; its final function, if one
is configured, is one of them too and takes the state type alone; and the state that it starts from,
if one is configured, is of the state type and in the form in which that type stores it. -/
theorem ofDecl_wired {d : KeyspaceDecl} {k : Keyspace} (built : ofDecl d = .ok k) :
    List.Forall₂ (Aggregate.Wired k.registry k.functions) d.aggregates k.aggregates := by
  obtain ⟨-, -, -, aggregates, -⟩ := ofDecl_eq_ok_iff.mp built
  refine (mapM_eq_ok_iff.mp aggregates).imp fun d a made => ?_
  exact (Aggregate.ofDecl_eq_ok_iff.mp made).wired

theorem ofDecl_wired_overload :
    let point : UserType := ⟨some ⟨some "geo", "point"⟩, [("x", .scalar .int)]⟩
    let state : Ty := .tuple [.scalar .bigint, .list point.ty]
    let step (state : String) : FunctionDecl :=
      ⟨"step", [⟨"s", state⟩, ⟨"p", "geo.point"⟩], state, none, none, false⟩
    let last : FunctionDecl :=
      ⟨"last", [⟨"s", "tuple<bigint,list<Point>>"⟩], "point", none, none, false⟩
    let path : AggregateDecl :=
      ⟨"path", ["frozen<point>"], "step", "tuple<bigint, frozen<list<\"geo\".point>>>", some "last",
        some "(7, [{x: 1}])"⟩
    let d : KeyspaceDecl :=
      { name := "geo", types := [⟨"point", [⟨"x", "int"⟩]⟩], tables := []
        functions := [step "int", step "tuple<bigint, list<point>>", last], aggregates := [path] }
    ∃ k a f, ofDecl d = .ok k ∧ k.aggregates = [a] ∧
      a.stateFunction.Serves k.functions "step" [state, point.ty] ∧
        a.finalFunction = some f ∧ f.Serves k.functions "last" [state] ∧
          ∃ v, a.initialCondition = some v ∧ state.accepts v ∧ state.coerce v = .ok v := by
  intro point state step last path d
  have built : ∃ k a, ofDecl d = .ok k ∧ k.aggregates = [a] ∧ a.stateType = state ∧
      a.argumentTypes = [point.ty] ∧ a.finalFunction.isSome ∧ a.initialCondition.isSome := by
    subst d path last step state point
    exact ⟨_, _, rfl, rfl, rfl, rfl, rfl, rfl⟩
  obtain ⟨k, a, built, one, types, arguments, final, start⟩ := built
  obtain ⟨f, final⟩ := Option.isSome_iff_exists.mp final
  obtain ⟨v, start⟩ := Option.isSome_iff_exists.mp start
  have all := ofDecl_wired built
  rw [one] at all
  obtain ⟨-, -, -, first, second, third⟩ := (List.forall₂_cons.mp all).1
  rw [types, arguments] at first
  rw [final, types] at second
  rw [start, types] at third
  have serves := Option.rel_some_some.mp second
  have kept := Option.rel_some_some.mp third
  exact ⟨k, a, f, built, one, first, final, serves, v, start, kept.2⟩

end Keyspace

end Cql
