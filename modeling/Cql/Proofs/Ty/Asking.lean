import Cql.Ty.Asking
import Cql.Proofs.Ty.Grammar

/-!
What reading asks of a resolver, and what becomes of it. Which names are asked for, one after
another, does not depend on the answers as long as there are any; the first name without one ends
the reading. So the text alone tells the references, and the resolver what becomes of them.
-/

namespace Cql

def Resolver.lacks (resolve : Resolver) (label : Label) : Bool :=
  (resolve label.keyspace label.name).isNone

/-- A step that is not refused: it is done, or reading stops at something that may not stand
there. -/
def Plain {α : Type} (outcome : Except Stop α) : Prop := ∀ fault, outcome ≠ .error (.refused fault)

theorem Plain.bind {α β : Type} {outcome : Except Stop α} {f : α → Except Stop β}
    (first : Plain outcome) (then_ : ∀ x, Plain (f x)) : Plain (outcome >>= f) := by
  cases outcome with
  | ok x => exact then_ x
  | error stop =>
    intro fault same
    exact first fault (congrArg _ (Except.error.inj same))

theorem plain_ok {α : Type} (x : α) : Plain (.ok x) := nofun

theorem plain_unexpected {α : Type} (rest : List Char) :
    Plain (.error (.unexpected rest) : Except Stop α) := nofun

namespace Asks

variable {α β γ δ : Type} {resolve : Resolver}

section Answers

@[simp] theorem answered_ask (label : Label) (next : Option Ty → Asks α) :
    (ask label next).answered resolve =
      (next (resolve label.keyspace label.name)).answered resolve := rfl

@[simp] theorem answered_pure (x : α) : (pure x : Asks α).answered resolve = .ok x := rfl

@[simp] theorem answered_lift (outcome : Except Stop α) :
    (liftM outcome : Asks α).answered resolve = outcome := rfl

@[simp] theorem answered_bind (reading : Asks α) (f : α → Asks β) :
    (reading >>= f).answered resolve =
      reading.answered resolve >>= fun x => (f x).answered resolve := by
  induction reading with
  | ended outcome => cases outcome <;> rfl
  | ask label next ih => exact ih (resolve label.keyspace label.name)

end Answers

/-- Two readings in step: they ask for the same names whatever the answers are, stop at the same
place, and end at the first name that has no answer. What they come to is related. -/
inductive InStep (P : α → β → Prop) : Asks α → Asks β → Prop
  | ended {x : α} {y : β} (related : P x y) : InStep P (.ended (.ok x)) (.ended (.ok y))
  | stop (rest : List Char) :
      InStep P (.ended (.error (.unexpected rest))) (.ended (.error (.unexpected rest)))
  | ask {label : Label} {next : Option Ty → Asks α} {next' : Option Ty → Asks β}
      (unknown : next none = .ended (.error (.refused (.unknownType label.text))))
      (unknown' : next' none = .ended (.error (.refused (.unknownType label.text))))
      (known : ∀ t t', InStep P (next (some t)) (next' (some t'))) :
      InStep P (.ask label next) (.ask label next')

section Steps

variable {P : α → β → Prop} {Q : γ → δ → Prop} {x : Asks α} {y : Asks β}

theorem InStep.bind {f : α → Asks γ} {g : β → Asks δ} (first : InStep P x y)
    (then_ : ∀ a b, P a b → InStep Q (f a) (g b)) : InStep Q (x >>= f) (y >>= g) := by
  induction first with
  | ended related => exact then_ _ _ related
  | stop rest => exact .stop rest
  | ask unknown unknown' _ ih =>
    refine .ask ?_ ?_ ih
    · simp only [unknown, Asks.bind]
    · simp only [unknown', Asks.bind]

theorem inStep_lift {outcome : Except Stop α} {f : α → Asks γ} {g : α → Asks δ}
    (plain : Plain outcome) (then_ : ∀ x, InStep Q (f x) (g x)) :
    InStep Q (liftM outcome >>= f) (liftM outcome >>= g) := by
  cases outcome with
  | ok x => exact then_ x
  | error stop =>
    cases stop with
    | unexpected rest => exact .stop rest
    | refused fault => exact absurd rfl (plain fault)

/-- The first name that the resolver lacks is what reading comes to. -/
theorem InStep.answered_of_lacks (steps : InStep P x y) {label : Label}
    (first : y.labels.find? resolve.lacks = some label) :
    x.answered resolve = .error (.refused (.unknownType label.text)) := by
  induction steps with
  | ended related => contradiction
  | stop rest => contradiction
  | @ask l next next' unknown unknown' _ ih =>
    rw [labels, List.find?_cons] at first
    rw [answered_ask]
    cases found : resolve l.keyspace l.name with
    | none =>
      obtain rfl : l = label := by simpa [Resolver.lacks, found] using first
      rw [unknown]
      rfl
    | some t => exact ih t _ (by simpa [Resolver.lacks, found] using first)

/-- With a resolver that lacks none of the names, nothing is refused, and one that knows all that
it knows makes no difference. -/
theorem InStep.answered_of_known (resolve' : Resolver) (steps : InStep P x y)
    (known : y.labels.find? resolve.lacks = none) :
    Plain (x.answered resolve) ∧
      ((∀ keyspace name t, resolve keyspace name = some t → resolve' keyspace name = some t) →
        x.answered resolve' = x.answered resolve) := by
  induction steps with
  | ended related => exact ⟨plain_ok _, fun _ => rfl⟩
  | stop rest => exact ⟨plain_unexpected rest, fun _ => rfl⟩
  | @ask l next next' unknown unknown' _ ih =>
    rw [labels, List.find?_cons] at known
    simp only [answered_ask]
    cases found : resolve l.keyspace l.name with
    | none => simp [Resolver.lacks, found] at known
    | some t =>
      obtain ⟨allowed, same⟩ := ih t _ (by simpa [Resolver.lacks, found] using known)
      refine ⟨allowed, fun more => ?_⟩
      rw [more _ _ _ found]
      exact same more

end Steps

end Asks

namespace Ty.Asking

open Asks (InStep)

variable {α : Type} {resolve : Resolver}

section Answers

variable {item : AskingReader α} {item' : Reader α} {closing : Char}

theorem answered_items (same : ∀ s, (item s).answered resolve = item' s) (fuel : Nat)
    (s : List Char) :
    (items item closing fuel s).answered resolve = Reader.items item' closing fuel s := by
  induction fuel generalizing s with
  | zero => rfl
  | succ fuel ih =>
    simp only [items, Reader.items, Asks.answered_bind, same]
    congr 1
    apply funext
    rintro ⟨x, t⟩
    cases Reader.eat? closing t with
    | some u => rfl
    | none =>
      simp only [Asks.answered_bind, Asks.answered_lift, Asks.answered_pure, ih]
      rfl

theorem answered_list (same : ∀ s, (item s).answered resolve = item' s) (s : List Char) :
    (list item closing s).answered resolve = Reader.list item' closing s := by
  unfold list Reader.list
  cases Reader.eat? closing s with
  | some t => rfl
  | none => exact answered_items same _ s

theorem answered_field (same : ∀ s, (item s).answered resolve = item' s) (s : List Char) :
    (field item s).answered resolve = fieldReader item' s := by
  simp only [field, fieldReader, Asks.answered_bind, Asks.answered_lift, Asks.answered_pure, same]
  rfl

theorem answered_user (label : Label) (s : List Char) :
    (user label s).answered resolve =
      match resolve label.keyspace label.name with
      | some t => .ok (t, s)
      | none => .error (.refused (.unknownType label.text)) := by
  unfold user
  rw [Asks.answered_ask]
  cases resolve label.keyspace label.name <;> rfl

theorem answered_named (name : String) (s : List Char) :
    (named name s).answered resolve = namedReader resolve name s := by
  unfold named namedReader
  cases Scalar.ofName? name with
  | some known => rfl
  | none =>
    simp only [Asks.answered_bind, Asks.answered_lift, answered_user]
    unfold label
    cases Reader.eat? '.' s with
    | none => rfl
    | some s =>
      dsimp only
      cases nameReader s <;> rfl

theorem answered_reader (depth : Nat) (s : List Char) :
    (reader depth s).answered resolve = Ty.reader resolve depth s := by
  induction depth generalizing s with
  | zero => rfl
  | succ depth ih =>
    simp only [reader, Ty.reader, Asks.answered_bind, Asks.answered_lift]
    congr 1
    apply funext
    rintro ⟨name, s⟩
    cases Builder.ofName? name with
    | some b =>
      cases b <;>
        simp only [Asks.answered_bind, Asks.answered_lift, Asks.answered_pure, ih,
          answered_list ih] <;> rfl
    | none =>
      cases (if sameName name "userType" then Reader.eat? '<' s else none) with
      | some s =>
        simp only [Asks.answered_bind, Asks.answered_pure, answered_list (answered_field ih)]
        rfl
      | none => exact answered_named name s

end Answers

section Steps

variable {item : AskingReader α} {closing : Char}

def SameRest (x y : α × List Char) : Prop := x.2 = y.2

theorem inStep_read {β γ : Type} {Q : β → γ → Prop} {x y : Asks (α × List Char)}
    {f : α × List Char → Asks β} {g : α × List Char → Asks γ} (first : InStep SameRest x y)
    (then_ : ∀ a b rest, InStep Q (f (a, rest)) (g (b, rest))) :
    InStep Q (x >>= f) (y >>= g) := by
  apply first.bind
  rintro ⟨a, rest⟩ ⟨b, rest'⟩ (rfl : rest = rest')
  exact then_ a b rest

theorem plain_expect (c : Char) (s : List Char) : Plain (Reader.expect c s) := by
  unfold Reader.expect
  cases Reader.eat? c s with
  | some rest => exact plain_ok rest
  | none => exact plain_unexpected _

theorem plain_quoted (quote : Char) (s : List Char) : Plain (Reader.quoted quote s) := by
  fun_induction Reader.quoted quote s with
  | case1 | case3 => exact plain_unexpected []
  | case2 | case5 => exact plain_ok _
  | case4 s ih => exact ih.bind fun _ => plain_ok _
  | case6 c d s _ ih => exact ih.bind fun _ => plain_ok _

theorem plain_nameReader (s : List Char) : Plain (nameReader s) := by
  unfold nameReader
  split
  · exact (plain_quoted _ _).bind fun _ => plain_ok _
  · split
    · exact plain_unexpected _
    · exact plain_ok _

theorem plain_label (name : String) (s : List Char) : Plain (label name s) := by
  unfold label
  split
  · exact (plain_nameReader _).bind fun _ => plain_ok _
  · exact plain_ok _

theorem inStep_items (step : ∀ s, InStep SameRest (item s) (item s)) (fuel : Nat)
    (s : List Char) : InStep SameRest (items item closing fuel s) (items item closing fuel s) := by
  induction fuel generalizing s with
  | zero => exact .stop s
  | succ fuel ih =>
    refine inStep_read (step s) fun x y t => ?_
    dsimp only
    cases Reader.eat? closing t with
    | some u => exact .ended rfl
    | none =>
      refine Asks.inStep_lift (plain_expect ',' t) fun u => ?_
      exact inStep_read (ih u) fun xs ys v => .ended rfl

theorem inStep_list (step : ∀ s, InStep SameRest (item s) (item s)) (s : List Char) :
    InStep SameRest (list item closing s) (list item closing s) := by
  unfold list
  cases Reader.eat? closing s with
  | some t => exact .ended rfl
  | none => exact inStep_items step _ s

theorem inStep_field (step : ∀ s, InStep SameRest (item s) (item s)) (s : List Char) :
    InStep SameRest (field item s) (field item s) := by
  refine Asks.inStep_lift (plain_nameReader s) fun ⟨name, t⟩ => ?_
  refine Asks.inStep_lift (plain_expect ':' t) fun u => ?_
  exact inStep_read (step u) fun x y v => .ended rfl

theorem inStep_named (name : String) (s : List Char) :
    InStep SameRest (named name s) (named name s) := by
  unfold named
  cases Scalar.ofName? name with
  | some known => exact .ended rfl
  | none =>
    refine Asks.inStep_lift (plain_label name s) fun ⟨label, t⟩ => ?_
    exact .ask rfl rfl fun _ _ => .ended rfl

/-- What comes next in a text does not depend on what its user types are. -/
theorem inStep_reader (depth : Nat) (s : List Char) :
    InStep SameRest (reader depth s) (reader depth s) := by
  induction depth generalizing s with
  | zero => exact .stop s
  | succ depth ih =>
    refine Asks.inStep_lift (plain_nameReader s) fun ⟨name, t⟩ => ?_
    dsimp only
    cases Builder.ofName? name with
    | some b =>
      have opened {α : Type} {f : List Char → Asks (α × List Char)}
          (then_ : ∀ u, InStep SameRest (f u) (f u)) :
          InStep SameRest (liftM (Reader.expect '<' t) >>= f) (liftM (Reader.expect '<' t) >>= f) :=
        Asks.inStep_lift (plain_expect '<' t) then_
      have closed (x y : Ty) (v : List Char) :
          InStep SameRest (do return (x, ← Reader.expect '>' v) : Asks (Ty × List Char))
            (do return (y, ← Reader.expect '>' v)) :=
        Asks.inStep_lift (plain_expect '>' v) fun _ => .ended rfl
      cases b with
      | list => exact opened fun u => inStep_read (ih u) fun x y v => closed _ _ v
      | set => exact opened fun u => inStep_read (ih u) fun x y v => closed _ _ v
      | frozen => exact opened fun u => inStep_read (ih u) fun x y v => closed _ _ v
      | map =>
        refine opened fun u => inStep_read (ih u) fun x y v => ?_
        refine Asks.inStep_lift (plain_expect ',' v) fun u => ?_
        exact inStep_read (ih u) fun x y v => closed _ _ v
      | tuple => exact opened fun u => inStep_read (inStep_list ih u) fun x y v => .ended rfl
    | none =>
      cases (if sameName name "userType" then Reader.eat? '<' t else none) with
      | some u => exact inStep_read (inStep_list (inStep_field ih) u) fun x y v => .ended rfl
      | none => exact inStep_named name t

end Steps

end Ty.Asking

namespace Ty

variable {resolve resolve' : Resolver} {input : String} {label : Label}

theorem parseWith_eq (resolve : Resolver) (input : String) :
    parseWith resolve input =
      Reader.whole .typeText (fun _ => (asking input).answered resolve) input := by
  unfold parseWith asking Reader.whole
  rw [Asking.answered_reader]

/-- The first name in the text that the resolver lacks is the fault, whatever follows it. -/
theorem parseWith_of_lacks (first : (references input).find? resolve.lacks = some label) :
    parseWith resolve input = .error (.unknownType label.text) := by
  have steps := Asking.inStep_reader (input.toList.length + 1) input.toList
  have answered : (asking input).answered resolve = .error (.refused (.unknownType label.text)) :=
    steps.answered_of_lacks first
  rw [parseWith_eq, answered]
  rfl

theorem category_of_whole {α : Type} {g : Grammar} {outcome : Except Stop (α × List Char)}
    {fault : Fault} (plain : Plain outcome)
    (h : Reader.whole g (fun _ => outcome) input = .error fault) : fault.category = .format := by
  have unexpected (rest : List Char) :
      (Stop.fault g input (.unexpected rest)).category = .format := by
    cases rest <;> rfl
  unfold Reader.whole at h
  cases outcome with
  | ok done =>
    dsimp only at h
    split at h
    · contradiction
    · exact Except.error.inj h ▸ unexpected _
  | error stop =>
    cases stop with
    | unexpected rest => exact Except.error.inj h ▸ unexpected rest
    | refused fault => exact absurd rfl (plain fault)

theorem category_of_known {fault : Fault} (known : (references input).find? resolve.lacks = none)
    (h : parseWith resolve input = .error fault) : fault.category = .format := by
  have steps := Asking.inStep_reader (input.toList.length + 1) input.toList
  rw [parseWith_eq] at h
  exact category_of_whole (steps.answered_of_known resolve known).1 h

theorem unknownType_or_format {fault : Fault} (h : parseWith resolve input = .error fault) :
    (∃ label, (references input).find? resolve.lacks = some label ∧
      fault = .unknownType label.text) ∨
      (references input).find? resolve.lacks = none ∧ fault.category = .format := by
  cases first : (references input).find? resolve.lacks with
  | some label =>
    have lost := h.symm.trans (parseWith_of_lacks first)
    exact .inl ⟨label, rfl, Except.error.inj lost⟩
  | none => exact .inr ⟨rfl, category_of_known first h⟩

/-- If the resolver knows all names in the text, one that knows more makes no difference. -/
theorem parseWith_of_known (known : (references input).find? resolve.lacks = none)
    (more : ∀ keyspace name t, resolve keyspace name = some t → resolve' keyspace name = some t) :
    parseWith resolve' input = parseWith resolve input := by
  have steps := Asking.inStep_reader (input.toList.length + 1) input.toList
  have same : (asking input).answered resolve' = (asking input).answered resolve :=
    (steps.answered_of_known resolve' known).2 more
  rw [parseWith_eq, parseWith_eq, same]

/-- A resolver that knows more user types reads as the same type whatever was read before, and finds
the same fault in every text that is malformed. It only reads more where a name was not known: the
first such name was the fault. -/
theorem parseWith_extend
    (more : ∀ keyspace name t, resolve keyspace name = some t → resolve' keyspace name = some t)
    (input : String) :
    (∀ t, parseWith resolve input = .ok t → parseWith resolve' input = .ok t) ∧
      (∀ fault, parseWith resolve input = .error fault → fault.category = .format →
        parseWith resolve' input = .error fault) ∧
      ∀ t, parseWith resolve' input = .ok t → parseWith resolve input ≠ .ok t →
        ∃ label, (references input).find? resolve.lacks = some label ∧
          parseWith resolve input = .error (.unknownType label.text) := by
  cases first : (references input).find? resolve.lacks with
  | none =>
    have same := parseWith_of_known first more
    refine ⟨fun t h => same.trans h, fun fault h _ => same.trans h, fun t read other => ?_⟩
    rw [same] at read
    exact absurd read other
  | some label =>
    have lost := parseWith_of_lacks first
    refine ⟨fun t h => ?_, fun fault h format => ?_, fun t _ _ => ⟨label, rfl, lost⟩⟩
    · rw [lost] at h
      contradiction
    · rw [lost] at h
      obtain rfl := Except.error.inj h
      contradiction

theorem parseWith_extend_named :
    let named (name : String) : Ty := .user (some ⟨none, name⟩) []
    let one : Resolver := fun keyspace name =>
      if keyspace.isNone ∧ name = "a" then some (named name) else none
    let all : Resolver := fun keyspace name => if keyspace.isNone then some (named name) else none
    parseWith all "set<a>" = .ok (.set (named "a")) ∧
      parseWith all "list<a, b>" = .error (.unexpectedChar .typeText ',' 6 "list<a, b>") ∧
      parseWith all "map<a, frozen<b>>" = .ok (.map (named "a") (named "b")) ∧
      ∃ label, (references "map<a, frozen<b>>").find? one.lacks = some label ∧
        parseWith one "map<a, frozen<b>>" = .error (.unknownType label.text) := by
  intro named one all
  have more (keyspace : Option String) (name : String) (t : Ty) :
      one keyspace name = some t → all keyspace name = some t := by
    subst one all
    dsimp only
    intro known
    split at known
    · rename_i place
      rw [if_pos place.1]
      exact known
    · contradiction
  have read : parseWith all "map<a, frozen<b>>" = .ok (.map (named "a") (named "b")) := rfl
  have lost : parseWith one "map<a, frozen<b>>" = .error (.unknownType "b") := rfl
  refine ⟨(parseWith_extend more "set<a>").1 _ rfl,
    (parseWith_extend more "list<a, b>").2.1 _ rfl rfl, read,
    (parseWith_extend more "map<a, frozen<b>>").2.2 _ read ?_⟩
  rw [lost]
  simp

end Ty

end Cql
