import Cql.Fixed
import Cql.Ty.Order

/-!
Dynamic values: what a caller binds as a parameter or reads from a column. Composite values carry
the types of their components. Sets hold their items, and maps their entries, in the order of
`Value.cmp`.
-/

namespace Cql

inductive Value
  | null
  | bool (b : Bool)
  | long (n : Long)
  | double (d : Double)
  | text (s : String)
  | blob (bytes : List UInt8)
  | fixed (w : Width) (n : Fixed w)
  | type (t : Ty)
  | list (element : Ty) (items : List Value)
  | set (element : Ty) (items : List Value)
  | map (key value : Ty) (entries : List (Value × Value))
  | tuple (elements : List Ty) (slots : List Value)
  | user (u : UserType) (slots : List Value)
  deriving Repr

namespace Kind

def ofWidth : Width → Kind
  | .tinyint => .tinyint
  | .smallint => .smallint
  | .int => .int
  | .bigint => .bigint

end Kind

namespace Value

def kind : Value → Kind
  | .null => .null
  | .bool _ => .bool
  | .long _ => .long
  | .double _ => .double
  | .text _ => .text
  | .blob _ => .blob
  | .fixed w _ => .ofWidth w
  | .type _ => .type
  | .list _ _ => .list
  | .set _ _ => .set
  | .map _ _ _ => .map
  | .tuple _ _ => .tuple
  | .user _ _ => .user

def isNull : Value → Bool
  | .null => true
  | _ => false

def asText? : Value → Option String
  | .text s => some s
  | _ => none

def asType? : Value → Option Ty
  | .type t => some t
  | _ => none

/-- The integer of a width that a number, a decimal text or a value of that width stands for. -/
def toFixed (w : Width) : Value → Except Fault (Fixed w)
  | .long n => Fixed.ofInt w n.val
  | .double d => Fixed.ofDouble w d
  | .text s => Fixed.ofText w s
  | .fixed v n => if h : v = w then .ok (h ▸ n) else .error (.notNumeric w (.ofWidth v))
  | v => .error (.notNumeric w v.kind)

end Value

end Cql
