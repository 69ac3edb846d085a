import Cql.Sorted
import Cql.Typing

namespace Cql.Container

def element (t : Ty) (v : Value) : Except Fault Value :=
  if v.isNull then .error .nullElement else t.coerce v

def push (t : Ty) (items : List Value) (v : Value) : Except Fault (List Value) := do
  let v ← element t v
  return items ++ [v]

def insert (t : Ty) (items : List Value) (v : Value) : Except Fault (Bool × List Value) := do
  let v ← element t v
  return Sorted.insert Value.cmp v items

/-- Whether an equal value is in the set. The value is taken as it is, not in its stored form. -/
def contains (items : List Value) (v : Value) : Bool := Sorted.contains Value.cmp v items

/-- A map with the value under the key, and the value that was there before. Neither may be null,
and both are looked at before either is checked against its type. -/
def put (key value : Ty) (entries : List (Value × Value)) (k v : Value) :
    Except Fault (Option Value × List (Value × Value)) := do
  if k.isNull || v.isNull then throw .nullElement
  let k ← key.coerce k
  let v ← value.coerce v
  return Sorted.put Value.cmp k v entries

def get? (entries : List (Value × Value)) (k : Value) : Option Value :=
  Sorted.get? Value.cmp k entries

def emptySlots (size : Nat) : List Value := List.replicate size .null

def setSlot (elements : List Ty) (slots : List Value) (index : Nat) (v : Value) :
    Except Fault (List Value) :=
  match elements[index]? with
  | some t => (t.coerce v).map (slots.set index)
  | none => .error (.indexOutOfBounds index elements.length)

/-- A user type value with the value in the first field of that name. -/
def setField (u : UserType) (slots : List Value) (name : String) (v : Value) :
    Except Fault (List Value) :=
  match u.fieldIndex? name, u.field? name with
  | some index, some t => (t.coerce v).map (slots.set index)
  | _, _ => .error (.unknownField name)

def getField? (u : UserType) (slots : List Value) (name : String) : Option Value :=
  (u.fieldIndex? name).bind (slots[·]?)

end Cql.Container
