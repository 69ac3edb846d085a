import Cql.Value.Order

/-!
Which values a column type takes, and the one form in which it stores them. Composite values are
told apart by the types they carry; that their items are of these types is seen to when they are
put in.
-/

namespace Cql

namespace Scalar

def accepts : Scalar → Value → Bool
  | .ascii, .text _ | .text, .text _ | .varchar, .text _ => true
  | .boolean, .bool _ => true
  | .int, .fixed .int _ => true
  | .int, .long n => (Fixed.ofInt? .int n.val).isSome
  | .bigint, .fixed .bigint _ | .bigint, .long _ => true
  | .counter, .fixed .bigint _ | .counter, .long _ => true
  | .smallint, .fixed .smallint _ => true
  | .tinyint, .fixed .tinyint _ => true
  | .double, .double _ | .float, .double _ => true
  | .blob, .blob _ => true
  | .timestamp, .long _ | .date, .long _ | .time, .long _ => true
  | .decimal, .text _ | .varint, .text _ | .uuid, .text _ => true
  | .timeuuid, .text _ | .inet, .text _ | .duration, .text _ => true
  | _, _ => false

end Scalar

namespace Ty

def accepts (t : Ty) (v : Value) : Bool :=
  match t, v with
  | _, .null => true
  | .scalar s, v => s.accepts v
  | .list t, .list u _ => u = t
  | .set t, .set u _ => u = t
  | .map k v, .map k' v' _ => k' = k ∧ v' = v
  | .tuple ts, .tuple us _ => us = ts
  | .user label fields, .user u _ => u = ⟨label, fields⟩
  | _, _ => false

def validate (t : Ty) (v : Value) : Except Fault Unit :=
  if t.accepts v then .ok () else .error (.mismatch t v.kind)

/-- The value in the form in which the type stores it: integers of the host language become
integers of the column's width. -/
def coerce (t : Ty) (v : Value) : Except Fault Value := do
  t.validate v
  match t, v with
  | .scalar .int, .long n => (Fixed.ofInt .int n.val).map (.fixed .int)
  | .scalar .bigint, .long n | .scalar .counter, .long n => .ok (.fixed .bigint n)
  | _, v => .ok v

end Ty

end Cql
