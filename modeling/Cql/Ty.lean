import Cql.Scalar

namespace Cql

structure Label where
  keyspace : Option String
  name : String
  deriving DecidableEq, Repr

inductive Ty
  | scalar (s : Scalar)
  | list (element : Ty)
  | set (element : Ty)
  | map (key value : Ty)
  | tuple (elements : List Ty)
  | user (label : Option Label) (fields : List (String × Ty))
  deriving Repr

structure UserType where
  label : Option Label
  fields : List (String × Ty)
  deriving Repr

namespace Label

def text (l : Label) : String :=
  match l.keyspace with
  | some keyspace => keyspace ++ "." ++ l.name
  | none => l.name

end Label

namespace UserType

def ty (u : UserType) : Ty := .user u.label u.fields

def fieldIndex? (u : UserType) (name : String) : Option Nat :=
  u.fields.findIdx? (·.1 == name)

def field? (u : UserType) (name : String) : Option Ty := u.fields.lookup name

end UserType

namespace Ty

def name : Ty → String
  | .scalar s => s.name
  | .list _ => "list"
  | .set _ => "set"
  | .map _ _ => "map"
  | .tuple _ => "tuple"
  | .user (some label) _ => label.name
  | .user none _ => "udt"

def code : Ty → Code
  | .scalar s => .scalar s
  | .list _ => .list
  | .set _ => .set
  | .map _ _ => .map
  | .tuple _ => .tuple
  | .user _ _ => .user

def isScalar : Ty → Bool
  | .scalar _ => true
  | _ => false

mutual

/-- The type as it is written: named user types by name, anonymous ones by their fields. -/
def text : Ty → String
  | .scalar s => s.name
  | .list element => "list<" ++ element.text ++ ">"
  | .set element => "set<" ++ element.text ++ ">"
  | .map key value => "map<" ++ key.text ++ ", " ++ value.text ++ ">"
  | .tuple elements => "tuple<" ++ ", ".intercalate (texts elements) ++ ">"
  | .user (some label) _ => label.text
  | .user none fields => "userType<" ++ ", ".intercalate (fieldTexts fields) ++ ">"

def texts : List Ty → List String
  | [] => []
  | t :: ts => t.text :: texts ts

def fieldTexts : List (String × Ty) → List String
  | [] => []
  | (name, t) :: fields => (name ++ ":" ++ t.text) :: fieldTexts fields

end

theorem texts_eq_map (ts : List Ty) : texts ts = ts.map text := by
  induction ts with
  | nil => rfl
  | cons t ts ih => rw [texts, ih, List.map_cons]

theorem fieldTexts_eq_map (fields : List (String × Ty)) :
    fieldTexts fields = fields.map fun f => f.1 ++ ":" ++ f.2.text := by
  induction fields with
  | nil => rfl
  | cons f fields ih => rw [fieldTexts, ih, List.map_cons]

instance : ToString Ty := ⟨text⟩

end Ty

end Cql
