import Cql.Container
import Cql.Sorted.Search

/-!
The operations on containers step by step, for a container that is changed in place. An operation
that is refused ends where it is refused; whatever it has changed by then stays changed. Items of
sets and keys of maps are looked for by halving.
-/

namespace Cql.Container

abbrev Change (σ α : Type) := ExceptT Fault (StateM σ) α

namespace Change

variable {σ α β : Type}

def on (change : Change σ α) (held : σ) : Except Fault α × σ := change.run.run held

@[simp] theorem on_pure (a : α) (held : σ) : on (pure a) held = (.ok a, held) := rfl

@[simp] theorem on_check (outcome : Except Fault α) (held : σ) :
    on (liftM outcome : Change σ α) held = (outcome, held) := rfl

@[simp] theorem on_get (held : σ) : on (get : Change σ σ) held = (.ok held, held) := rfl

@[simp] theorem on_set (held after : σ) :
    on (set after : Change σ PUnit) held = (.ok ⟨⟩, after) := rfl

@[simp] theorem on_modify (f : σ → σ) (held : σ) :
    on (modify f : Change σ PUnit) held = (.ok ⟨⟩, f held) := rfl

@[simp] theorem on_bind (change : Change σ α) (next : α → Change σ β) (held : σ) :
    on (change >>= next) held =
      match change.on held with
      | (.ok a, after) => (next a).on after
      | (.error fault, after) => (.error fault, after) := by
  unfold on
  simp only [ExceptT.run_bind, StateT.run_bind]
  cases change.run.run held with
  | mk outcome after => cases outcome <;> rfl

@[simp] theorem on_map (f : α → β) (change : Change σ α) (held : σ) :
    on (f <$> change) held = ((change.on held).1.map f, (change.on held).2) := by
  unfold on
  simp only [ExceptT.run_map, StateT.run_map]
  rfl

end Change

def pushInPlace (t : Ty) (v : Value) : Change (List Value) Unit := do
  let v ← element t v
  modify (· ++ [v])

def insertInPlace (t : Ty) (v : Value) : Change (List Value) Bool := do
  let v ← element t v
  match Sorted.search (·.cmp v) (← get) with
  | .found _ => return false
  | .vacant index =>
    modify (·.insertIdx index v)
    return true

def holds (items : List Value) (v : Value) : Bool :=
  match Sorted.search (·.cmp v) items with
  | .found _ => true
  | .vacant _ => false

def entry (key value : Ty) (k v : Value) : Except Fault (Value × Value) := do
  if k.isNull || v.isNull then throw .nullElement
  return (← key.coerce k, ← value.coerce v)

def putInPlace (key value : Ty) (k v : Value) :
    Change (List (Value × Value)) (Option Value) := do
  let (k, v) ← entry key value k v
  let entries ← get
  match Sorted.search (·.1.cmp k) entries with
  | .found index =>
    set (entries.modify index fun e => (e.1, v))
    return entries[index]?.map (·.2)
  | .vacant index =>
    set (entries.insertIdx index (k, v))
    return none

def valueOf? (entries : List (Value × Value)) (k : Value) : Option Value :=
  match Sorted.search (·.1.cmp k) entries with
  | .found index => entries[index]?.map (·.2)
  | .vacant _ => none

def setSlotInPlace (elements : List Ty) (index : Nat) (v : Value) : Change (List Value) Unit := do
  match elements[index]? with
  | some t =>
    let v ← t.coerce v
    modify (·.set index v)
  | none => throw (.indexOutOfBounds index elements.length)

def setFieldInPlace (u : UserType) (name : String) (v : Value) : Change (List Value) Unit := do
  match u.fieldIndex? name, u.field? name with
  | some index, some t =>
    let v ← t.coerce v
    modify (·.set index v)
  | _, _ => throw (.unknownField name)

end Cql.Container
