import Cql.Create
import Cql.Proofs.Outcome

/-!
Types built from dynamic arguments. At each position an argument of a certain kind is demanded, and
from that it follows what is built and, if nothing is, which argument is complained about: the first
one that is not what is demanded there.
-/

namespace Cql

inductive Demand
  | name | type
  deriving DecidableEq, Repr

namespace Demand

def admits : Demand → Value → Bool
  | .name, .text _ | .type, .type _ => true
  | _, _ => false

def noun : Demand → String
  | .name => "string"
  | .type => "type"

def fault : Demand → (position : Nat) → Fault
  | .name => .argumentNotText
  | .type => .argumentNotType

def byTurns (position : Nat) : Demand := if position % 2 = 1 then .name else .type

def allTypes (_ : Nat) : Demand := .type

variable {v : Value}

theorem admits_name_iff : Demand.name.admits v ↔ ∃ s, v = .text s := by
  cases v <;> simp [admits]

theorem admits_type_iff : Demand.type.admits v ↔ ∃ t, v = .type t := by
  cases v <;> simp [admits]

theorem category_fault (demand : Demand) (position : Nat) :
    (demand.fault position).category = .invalidArgument := by
  cases demand <;> rfl

theorem message_fault (demand : Demand) (position : Nat) :
    (demand.fault position).message = s!"Argument {position} is not a {demand.noun}" := by
  have joined (noun whole : String) (same : " is not a " ++ noun = whole) :
      "Argument " ++ toString position ++ whole =
        "Argument " ++ toString position ++ " is not a " ++ noun := by
    rw [← same, ← String.append_assoc]
  cases demand with
  | name => exact joined "string" " is not a string" rfl
  | type => exact joined "type" " is not a type" rfl

end Demand

/-- The argument at the position, where that of the first one is `start`, is not what is demanded
there. -/
def Offends (demand : Nat → Demand) (start : Nat) (args : List Value) (position : Nat) : Prop :=
  ∃ i v, args[i]? = some v ∧ position = start + i ∧ (demand position).admits v = false

def FirstOffends (demand : Nat → Demand) (start : Nat) (args : List Value) (position : Nat) : Prop :=
  Offends demand start args position ∧
    ∀ earlier < position, ¬ Offends demand start args earlier

def offence? (demand : Nat → Demand) : (start : Nat) → List Value → Option Nat
  | _, [] => none
  | start, v :: vs =>
    if (demand start).admits v then offence? demand (start + 1) vs else some start

section Offences

variable {demand : Nat → Demand} {start position : Nat} {args : List Value} {v : Value}

theorem not_offends_nil : ¬ Offends demand start [] position := by
  rintro ⟨i, v, here, -⟩
  simp at here

theorem offends_cons :
    Offends demand start (v :: args) position ↔
      position = start ∧ (demand start).admits v = false ∨
        Offends demand (start + 1) args position := by
  constructor
  · rintro ⟨i, w, here, rfl, other⟩
    cases i with
    | zero =>
      obtain rfl := Option.some.inj here
      exact .inl ⟨rfl, other⟩
    | succ i => exact .inr ⟨i, w, here, by omega, other⟩
  · rintro (⟨rfl, other⟩ | ⟨i, w, here, rfl, other⟩)
    · exact ⟨0, v, rfl, rfl, other⟩
    · exact ⟨i + 1, w, here, by omega, other⟩

theorem le_of_offends (offends : Offends demand start args position) : start ≤ position := by
  obtain ⟨i, -, -, rfl, -⟩ := offends
  exact Nat.le_add_right start i

theorem offends_cons_of_admits (admitted : (demand start).admits v) :
    Offends demand start (v :: args) position ↔ Offends demand (start + 1) args position := by
  rw [offends_cons, admitted]
  simp

theorem offence?_eq_some_iff :
    offence? demand start args = some position ↔ FirstOffends demand start args position := by
  induction args generalizing start with
  | nil => exact ⟨nofun, fun first => (not_offends_nil first.1).elim⟩
  | cons v args ih =>
    rw [offence?]
    split_ifs with admitted
    · rw [ih]
      simp only [FirstOffends, offends_cons_of_admits admitted]
    · have here : Offends demand start (v :: args) start :=
        offends_cons.mpr (.inl ⟨rfl, Bool.eq_false_iff.mpr admitted⟩)
      constructor
      · intro same
        obtain rfl := Option.some.inj same
        exact ⟨here, fun earlier before offends => by
          have := le_of_offends offends
          omega⟩
      · rintro ⟨offends, first⟩
        have behind := le_of_offends offends
        by_contra other
        exact first start (by grind) here

theorem offence?_eq_none_iff :
    offence? demand start args = none ↔ ∀ position, ¬ Offends demand start args position := by
  induction args generalizing start with
  | nil => exact ⟨fun _ _ => not_offends_nil, fun _ => rfl⟩
  | cons v args ih =>
    rw [offence?]
    split_ifs with admitted
    · rw [ih]
      simp only [offends_cons_of_admits admitted]
    · have here : Offends demand start (v :: args) start :=
        offends_cons.mpr (.inl ⟨rfl, Bool.eq_false_iff.mpr admitted⟩)
      exact ⟨nofun, fun none => (none start here).elim⟩

end Offences

section Types

variable {start : Nat} {args : List Value} {v : Value} {fault : Fault}

theorem components_of_other (other : Demand.type.admits v = false) :
    Ty.components start (v :: args) = .error (.argumentNotType start) := by
  cases v <;> first | rfl | contradiction

theorem components_eq_ok_iff {ts : List Ty} :
    Ty.components start args = .ok ts ↔ args = ts.map .type := by
  induction args generalizing start ts with
  | nil => cases ts <;> simp [Ty.components]
  | cons v args ih =>
    cases admitted : Demand.type.admits v with
    | true =>
      obtain ⟨t, rfl⟩ := Demand.admits_type_iff.mp admitted
      rw [Ty.components, map_eq_ok_iff]
      simp only [ih]
      constructor
      · rintro ⟨ts, rfl, rfl⟩
        rfl
      · intro same
        cases ts with
        | nil => contradiction
        | cons u ts =>
          obtain ⟨rfl, rfl⟩ : t = u ∧ args = ts.map .type := by simpa using same
          exact ⟨ts, rfl, rfl⟩
    | false =>
      rw [components_of_other admitted]
      refine ⟨nofun, fun same => ?_⟩
      cases ts with
      | nil => contradiction
      | cons t ts =>
        obtain ⟨rfl, -⟩ := List.cons.inj same
        contradiction

theorem components_eq_error_iff :
    Ty.components start args = .error fault ↔
      ∃ position, offence? Demand.allTypes start args = some position ∧
        fault = (Demand.allTypes position).fault position := by
  induction args generalizing start with
  | nil => simp [Ty.components, offence?]
  | cons v args ih =>
    have demanded : Demand.allTypes start = .type := rfl
    rw [offence?, demanded]
    cases admitted : Demand.type.admits v with
    | true =>
      obtain ⟨t, rfl⟩ := Demand.admits_type_iff.mp admitted
      rw [Ty.components, map_eq_error_iff, ih]
      rfl
    | false =>
      rw [components_of_other admitted]
      simp [Demand.allTypes, Demand.fault, eq_comm]

end Types

def turns (fields : List (String × Ty)) : List Value :=
  fields.flatMap fun (name, t) => [.text name, .type t]

section Fields

variable {start : Nat} {args : List Value} {rest : List (Value × Value)} {v w : Value}
  {fault : Fault}

theorem fieldsOf_of_notText (other : Demand.name.admits v = false) :
    Ty.fieldsOf start ((v, w) :: rest) = .error (.argumentNotText start) := by
  cases v <;> first | rfl | contradiction

theorem fieldsOf_of_notType {name : String} (other : Demand.type.admits w = false) :
    Ty.fieldsOf start ((.text name, w) :: rest) = .error (.argumentNotType (start + 1)) := by
  cases w <;> first | rfl | contradiction

theorem eq_nil_of_even (even : args.length % 2 = 0)
    (short : ∀ v w rest, args = v :: w :: rest → False) : args = [] := by
  match args with
  | [] => rfl
  | [v] => simp at even
  | v :: w :: rest => exact (short v w rest rfl).elim

theorem fieldsOf_eq_ok_iff (even : args.length % 2 = 0) {fields : List (String × Ty)} :
    Ty.fieldsOf start (pairs args) = .ok fields ↔ args = turns fields := by
  induction args using pairs.induct generalizing start fields with
  | case1 v w args ih =>
    have even' : args.length % 2 = 0 := by
      rw [List.length_cons, List.length_cons] at even
      omega
    rw [pairs]
    cases text : Demand.name.admits v with
    | false =>
      rw [fieldsOf_of_notText text]
      refine ⟨nofun, fun same => ?_⟩
      cases fields with
      | nil => contradiction
      | cons f fields =>
        obtain ⟨rfl, -⟩ := List.cons.inj same
        contradiction
    | true =>
      obtain ⟨name, rfl⟩ := Demand.admits_name_iff.mp text
      cases type : Demand.type.admits w with
      | false =>
        rw [fieldsOf_of_notType type]
        refine ⟨nofun, fun same => ?_⟩
        cases fields with
        | nil => contradiction
        | cons f fields =>
          obtain ⟨rfl, -⟩ := List.cons.inj (List.cons.inj same).2
          contradiction
      | true =>
        obtain ⟨t, rfl⟩ := Demand.admits_type_iff.mp type
        rw [Ty.fieldsOf, map_eq_ok_iff]
        simp only [ih even']
        constructor
        · rintro ⟨fields, rfl, rfl⟩
          rfl
        · intro same
          cases fields with
          | nil => contradiction
          | cons f fields =>
            obtain ⟨rfl, rfl, rfl⟩ : name = f.1 ∧ t = f.2 ∧ args = turns fields := by
              simpa [turns] using same
            exact ⟨fields, rfl, rfl⟩
  | case2 args short =>
    obtain rfl := eq_nil_of_even even short
    cases fields <;> simp [pairs, Ty.fieldsOf, turns]

theorem fieldsOf_eq_error_iff (even : args.length % 2 = 0) (odd : start % 2 = 1) :
    Ty.fieldsOf start (pairs args) = .error fault ↔
      ∃ position, offence? Demand.byTurns start args = some position ∧
        fault = (Demand.byTurns position).fault position := by
  induction args using pairs.induct generalizing start with
  | case1 v w args ih =>
    have even' : args.length % 2 = 0 := by
      rw [List.length_cons, List.length_cons] at even
      omega
    have first : Demand.byTurns start = .name := if_pos odd
    have second : Demand.byTurns (start + 1) = .type := if_neg (by omega)
    rw [pairs, offence?, offence?, first, second]
    cases text : Demand.name.admits v with
    | false =>
      rw [fieldsOf_of_notText text]
      simp [first, Demand.fault, eq_comm]
    | true =>
      obtain ⟨name, rfl⟩ := Demand.admits_name_iff.mp text
      cases type : Demand.type.admits w with
      | false =>
        rw [fieldsOf_of_notType type]
        simp [second, Demand.fault, eq_comm]
      | true =>
        obtain ⟨t, rfl⟩ := Demand.admits_type_iff.mp type
        rw [Ty.fieldsOf, map_eq_error_iff, ih even' (by omega)]
        rfl
  | case2 args short =>
    obtain rfl := eq_nil_of_even even short
    simp [pairs, Ty.fieldsOf, offence?]

end Fields

/-- A type is built from the arguments if each is what is demanded, and else the first one that is
not is named, by its position and by what is demanded there. -/
structure Checked (demand : Nat → Demand) (args : List Value) (built : Ty → Prop)
    (result : Except Fault Ty) : Prop where
  ok_iff : ∀ t, result = .ok t ↔ built t
  succeeds_iff : (∃ t, result = .ok t) ↔ ∀ position, ¬ Offends demand 1 args position
  error_iff : ∀ fault, result = .error fault ↔
    ∃ position, FirstOffends demand 1 args position ∧ fault = (demand position).fault position

theorem checked_of_offence {demand : Nat → Demand} {args : List Value} {built : Ty → Prop}
    {result : Except Fault Ty} (ok : ∀ t, result = .ok t ↔ built t)
    (error : ∀ fault, result = .error fault ↔
      ∃ position, offence? demand 1 args = some position ∧
        fault = (demand position).fault position) :
    Checked demand args built result where
  ok_iff := ok
  succeeds_iff := by
    rw [← offence?_eq_none_iff]
    cases offends : offence? demand 1 args with
    | some position =>
      rw [(error _).mpr ⟨position, offends, rfl⟩]
      simp
    | none =>
      cases result with
      | ok t => simp
      | error fault =>
        obtain ⟨position, some, -⟩ := (error fault).mp rfl
        rw [offends] at some
        contradiction
  error_iff fault := by simp only [error, offence?_eq_some_iff]

/-- User types take names and types by turns, and tuple types take types. An odd number of arguments
for a user type is refused, whatever they are. -/
theorem constructors_check_arguments (args : List Value) :
    (args.length % 2 = 1 → Ty.userOf args = .error .oddFields) ∧
      (args.length % 2 = 0 →
        Checked Demand.byTurns args (fun t => ∃ fields, args = turns fields ∧ t = .user none fields)
          (Ty.userOf args)) ∧
      Checked Demand.allTypes args (fun t => ∃ ts, args = ts.map .type ∧ t = .tuple ts)
        (Ty.tupleOf args) ∧
      Fault.oddFields.category = .invalidArgument ∧
      ∀ (demand : Demand) (position : Nat),
        (demand.fault position).category = .invalidArgument ∧
          (demand.fault position).message = s!"Argument {position} is not a {demand.noun}" := by
  refine ⟨fun odd => if_pos odd, fun even => ?_, ?_, rfl, fun demand position =>
    ⟨demand.category_fault position, demand.message_fault position⟩⟩
  · unfold Ty.userOf
    rw [if_neg (by omega)]
    refine checked_of_offence (fun t => ?_) fun fault => ?_
    · rw [map_eq_ok_iff]
      exact exists_congr fun fields => and_congr (fieldsOf_eq_ok_iff even) eq_comm
    · rw [map_eq_error_iff, fieldsOf_eq_error_iff even rfl]
  · unfold Ty.tupleOf
    refine checked_of_offence (fun t => ?_) fun fault => ?_
    · rw [map_eq_ok_iff]
      exact exists_congr fun ts => and_congr components_eq_ok_iff eq_comm
    · rw [map_eq_error_iff, components_eq_error_iff]

theorem first_of_two_offences_named :
    [Value.null].length % 2 = 1 ∧ Ty.userOf [.null] = .error .oddFields ∧
      [Value.text "a", .null, .null, .type (.scalar .int)].length % 2 = 0 ∧
      Ty.userOf [.text "a", .null, .null, .type (.scalar .int)] = .error (.argumentNotType 2) ∧
      Ty.tupleOf [.type (.scalar .int), .text "b", .null] = .error (.argumentNotType 2) := by
  have user := (constructors_check_arguments [.text "a", .null, .null, .type (.scalar .int)]).2.1 rfl
  have tuple := (constructors_check_arguments [.type (.scalar .int), .text "b", .null]).2.2.1
  refine ⟨rfl, (constructors_check_arguments [.null]).1 rfl, rfl, ?_, ?_⟩
  · exact (user.error_iff _).mpr ⟨2, offence?_eq_some_iff.mp rfl, rfl⟩
  · exact (tuple.error_iff _).mpr ⟨2, offence?_eq_some_iff.mp rfl, rfl⟩

end Cql
