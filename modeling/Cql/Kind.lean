namespace Cql

inductive Kind
  | null | bool | long | double | text | blob
  | tinyint | smallint | int | bigint
  | type | list | set | map | tuple | user
  deriving DecidableEq, Repr

namespace Kind

def rank : Kind → Nat
  | .null => 0
  | .bool => 1
  | .long => 2
  | .double => 3
  | .text => 4
  | .blob => 5
  | .tinyint => 6
  | .smallint => 7
  | .int => 8
  | .bigint => 9
  | .type => 10
  | .list => 11
  | .set => 12
  | .map => 13
  | .tuple => 14
  | .user => 15

def phrase : Kind → String
  | .null => "null"
  | .bool => "a boolean"
  | .long => "a long"
  | .double => "a double"
  | .text => "a string"
  | .blob => "a blob"
  | .tinyint => "a tinyint"
  | .smallint => "a smallint"
  | .int => "an int"
  | .bigint => "a bigint"
  | .type => "a type"
  | .list => "a collection"
  | .set => "a set"
  | .map => "a map"
  | .tuple => "a tuple"
  | .user => "a user type value"

theorem rank_injective {a b : Kind} (same : a.rank = b.rank) : a = b := by
  cases a <;> cases b <;> first | rfl | contradiction

end Kind

end Cql
