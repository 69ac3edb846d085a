import Cql.Name

namespace Cql

inductive Scalar
  | ascii | bigint | blob | boolean | counter | decimal | double | float | int | text | timestamp
  | uuid | varchar | varint | timeuuid | inet | date | time | smallint | tinyint | duration
  deriving DecidableEq, Repr

namespace Scalar

def all : List Scalar :=
  [.ascii, .bigint, .blob, .boolean, .counter, .decimal, .double, .float, .int, .text, .timestamp,
    .uuid, .varchar, .varint, .timeuuid, .inet, .date, .time, .smallint, .tinyint, .duration]

def code : Scalar → Nat
  | .ascii => 0x01
  | .bigint => 0x02
  | .blob => 0x03
  | .boolean => 0x04
  | .counter => 0x05
  | .decimal => 0x06
  | .double => 0x07
  | .float => 0x08
  | .int => 0x09
  | .text => 0x0a
  | .timestamp => 0x0b
  | .uuid => 0x0c
  | .varchar => 0x0d
  | .varint => 0x0e
  | .timeuuid => 0x0f
  | .inet => 0x10
  | .date => 0x11
  | .time => 0x12
  | .smallint => 0x13
  | .tinyint => 0x14
  | .duration => 0x15

def name : Scalar → String
  | .ascii => "ascii"
  | .bigint => "bigint"
  | .blob => "blob"
  | .boolean => "boolean"
  | .counter => "counter"
  | .decimal => "decimal"
  | .double => "double"
  | .float => "float"
  | .int => "int"
  | .text => "text"
  | .timestamp => "timestamp"
  | .uuid => "uuid"
  | .varchar => "varchar"
  | .varint => "varint"
  | .timeuuid => "timeuuid"
  | .inet => "inet"
  | .date => "date"
  | .time => "time"
  | .smallint => "smallint"
  | .tinyint => "tinyint"
  | .duration => "duration"

def ofName? (name : String) : Option Scalar := all.find? (sameName name ·.name)

def ofCode? (code : Nat) : Option Scalar := all.find? (·.code == code)

theorem mem_all (s : Scalar) : s ∈ all := by cases s <;> decide

theorem ofCode?_code (s : Scalar) : ofCode? s.code = some s := by cases s <;> rfl

theorem ofName?_name (s : Scalar) : ofName? s.name = some s := by cases s <;> rfl

theorem code_injective {a b : Scalar} (same : a.code = b.code) : a = b := by
  have h := ofCode?_code a
  rw [same, ofCode?_code b] at h
  exact (Option.some.inj h).symm

end Scalar

inductive Code
  | scalar (s : Scalar)
  | list | map | set | user | tuple
  deriving DecidableEq, Repr

namespace Code

def number : Code → Nat
  | .scalar s => s.code
  | .list => 0x20
  | .map => 0x21
  | .set => 0x22
  | .user => 0x30
  | .tuple => 0x31

def ofNumber? (n : Nat) : Option Code :=
  match n with
  | 0x20 => some .list
  | 0x21 => some .map
  | 0x22 => some .set
  | 0x30 => some .user
  | 0x31 => some .tuple
  | _ => (Scalar.ofCode? n).map .scalar

end Code

def hexCode (n : Nat) : String :=
  let digits := Nat.toDigits 16 n
  "0x" ++ String.ofList (List.replicate (4 - digits.length) '0' ++ digits)

end Cql
