namespace Cql

inductive Width
  | tinyint | smallint | int | bigint
  deriving DecidableEq, Repr

namespace Width

def all : List Width := [.tinyint, .smallint, .int, .bigint]

def bits : Width → Nat
  | .tinyint => 8
  | .smallint => 16
  | .int => 32
  | .bigint => 64

def name : Width → String
  | .tinyint => "tinyint"
  | .smallint => "smallint"
  | .int => "int"
  | .bigint => "bigint"

def ofName? (name : String) : Option Width := all.find? (·.name == name)

def lo (w : Width) : Int := -(1 <<< (w.bits - 1) : Nat)

def hi (w : Width) : Int := (1 <<< (w.bits - 1) : Nat) - 1

theorem lo_neg (w : Width) : w.lo < 0 := by cases w <;> decide

theorem hi_pos (w : Width) : 0 < w.hi := by cases w <;> decide

/-- The bounds are lopsided: one more integer lies below zero than above it. -/
theorem lo_eq_neg_hi (w : Width) : w.lo = -w.hi - 1 := by cases w <;> decide

end Width

end Cql
