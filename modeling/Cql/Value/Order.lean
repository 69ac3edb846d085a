import Cql.Sorted
import Cql.Value

/-!
The total order of values: by rank of the kind, then within the kind. Composite values of one
kind are ordered by the types they carry and then item by item.
-/

namespace Cql.Value

mutual

def cmp : Value → Value → Ordering
  | .null, .null => .eq
  | .bool a, .bool b => compare a b
  | .long a, .long b => compare a.val b.val
  | .double a, .double b => a.cmp b
  | .text a, .text b => compare a b
  | .blob a, .blob b => compare a b
  | .fixed w a, .fixed v b =>
    (compare (Kind.ofWidth w).rank (Kind.ofWidth v).rank).then (compare a.val b.val)
  | .type a, .type b => a.cmp b
  | .list t xs, .list u ys => (t.cmp u).then (cmpAll xs ys)
  | .set t xs, .set u ys => (t.cmp u).then (cmpAll xs ys)
  | .map k v es, .map l u fs => ((k.cmp l).then (v.cmp u)).then (cmpEntries es fs)
  | .tuple ts xs, .tuple us ys => (Ty.cmpAll ts us).then (cmpAll xs ys)
  | .user u xs, .user v ys => (u.cmp v).then (cmpAll xs ys)
  | a, b => compare a.kind.rank b.kind.rank

def cmpAll : List Value → List Value → Ordering
  | [], [] => .eq
  | [], _ :: _ => .lt
  | _ :: _, [] => .gt
  | x :: xs, y :: ys => (x.cmp y).then (cmpAll xs ys)

def cmpEntries : List (Value × Value) → List (Value × Value) → Ordering
  | [], [] => .eq
  | [], _ :: _ => .lt
  | _ :: _, [] => .gt
  | (k, v) :: es, (l, u) :: fs => ((k.cmp l).then (v.cmp u)).then (cmpEntries es fs)

end

def sort (xs : List Value) : List Value := xs.mergeSort fun a b => a.cmp b != .gt

def distinct (xs : List Value) : List Value :=
  xs.foldl (fun items x => (Sorted.insert cmp x items).2) []

end Cql.Value
