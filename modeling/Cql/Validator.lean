import Cql.Reader
import Cql.Hex
import Cql.Ty

/-!
Validators: column types as names of classes with their parameters in parentheses, which older
schema tables hold instead of type texts. Around the type itself, `ReversedType` marks a column in
descending order and `FrozenType` a frozen one; elsewhere the two change nothing.
-/

namespace Cql

structure Validator where
  ty : Ty
  reversed : Bool
  frozen : Bool
  deriving Repr

namespace Validator

def package : String := "org.apache.cassandra.db.marshal."

def scalars : List (String × Scalar) :=
  [("AsciiType", .ascii), ("LongType", .bigint), ("BytesType", .blob), ("BooleanType", .boolean),
    ("CounterColumnType", .counter), ("DecimalType", .decimal), ("DoubleType", .double),
    ("FloatType", .float), ("InetAddressType", .inet), ("Int32Type", .int), ("UTF8Type", .text),
    ("TimestampType", .timestamp), ("DateType", .timestamp), ("UUIDType", .uuid),
    ("IntegerType", .varint), ("TimeUUIDType", .timeuuid), ("SimpleDateType", .date),
    ("TimeType", .time), ("ShortType", .smallint), ("ByteType", .tinyint),
    ("DurationType", .duration)]

def isWordChar (c : Char) : Bool := c.isAlphanum || c == '.' || c == '_' || c == '$'

def wordReader : Reader String := fun s =>
  let s := trimStart s
  if (s.takeWhile isWordChar).isEmpty then .error (.unexpected s)
  else .ok (String.ofList (s.takeWhile isWordChar), s.dropWhile isWordChar)

def stripPackage (name : String) : String :=
  match package.toList.isPrefixOf? name.toList with
  | some rest => String.ofList rest
  | none => name

def classReader : Reader String := fun s => do
  let (name, s) ← wordReader s
  return (stripPackage name, s)

def decodeName? (hex : String) : Option String :=
  (Hex.decode? hex.toList).bind fun bytes => String.fromUTF8? ⟨bytes.toArray⟩

def hexNameReader : Reader String := fun s => do
  let (hex, s) ← wordReader s
  match decodeName? hex with
  | some name => return (name, s)
  | none => throw (.refused (.notHexName hex))

def fieldReader (inner : Reader Ty) : Reader (String × Ty) := fun s => do
  let (name, s) ← hexNameReader s
  let (t, s) ← inner (← Reader.expect ':' s)
  return ((name, t), s)

def userReader (inner : Reader Ty) : Reader Ty := fun s => do
  let (keyspace, s) ← wordReader s
  let (name, s) ← hexNameReader (← Reader.expect ',' s)
  let label : Label := ⟨some keyspace, name⟩
  match Reader.eat? ')' s with
  | some s => return (.user (some label) [], s)
  | none => do
    let s ← Reader.expect ',' s
    let (fields, s) ← Reader.items (fieldReader inner) ')' (s.length + 1) s
    return (.user (some label) fields, s)

def bodyReader (inner : Reader Ty) (className : String) : Reader Ty := fun s =>
  match scalars.lookup className with
  | some k => .ok (.scalar k, s)
  | none => do
    let s ← Reader.expect '(' s
    match className with
    | "ListType" => do
      let (t, s) ← inner s
      return (.list t, ← Reader.expect ')' s)
    | "SetType" => do
      let (t, s) ← inner s
      return (.set t, ← Reader.expect ')' s)
    | "MapType" => do
      let (k, s) ← inner s
      let (v, s) ← inner (← Reader.expect ',' s)
      return (.map k v, ← Reader.expect ')' s)
    | "FrozenType" | "ReversedType" => do
      let (t, s) ← inner s
      return (t, ← Reader.expect ')' s)
    | "TupleType" => do
      let (ts, s) ← Reader.items inner ')' (s.length + 1) s
      return (.tuple ts, s)
    | "UserType" => userReader inner s
    | _ => throw (.refused (.unsupportedClass className))

def tyReader : (depth : Nat) → Reader Ty
  | 0, s => .error (.unexpected s)
  | depth + 1, s => do
    let (className, s) ← classReader s
    bodyReader (tyReader depth) className s

def unwrap (wrapper className : String) (s : List Char) :
    Except Stop (Bool × String × List Char) :=
  if className = wrapper then do
    let (className, s) ← classReader (← Reader.expect '(' s)
    return (true, className, s)
  else return (false, className, s)

def close (wrapped : Bool) (s : List Char) : Except Stop (List Char) :=
  if wrapped then Reader.expect ')' s else .ok s

/-- The reversing wrapper is looked for around the freezing one. -/
def reader : Reader Validator := fun s => do
  let (className, r) ← classReader s
  let (reversed, className, r) ← unwrap "ReversedType" className r
  let (frozen, className, r) ← unwrap "FrozenType" className r
  let (ty, r) ← bodyReader (tyReader s.length) className r
  let r ← close frozen r
  let r ← close reversed r
  return (⟨ty, reversed, frozen⟩, r)

def parse (input : String) : Except Fault Validator := Reader.whole .validator reader input

end Validator

end Cql
