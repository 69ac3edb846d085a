import Cql.Hash
import Cql.Value

/-!
The hash of a value. Composite values mix the hashes of their items, in order, into the rank of
their kind; the types they carry play no part.
-/

namespace Cql

namespace Fixed

def hash {w : Width} (a : Fixed w) : UInt32 :=
  match w with
  | .bigint => Hash.ofLong a.val
  | _ => Hash.ofSmall a.val

end Fixed

namespace Value

def seed (k : Kind) : UInt32 := UInt32.ofNat k.rank

mutual

def hash : Value → UInt32
  | .null => 0
  | .bool b => if b then 1 else 0
  | .long n => Hash.ofLong n.val
  | .double d => Hash.ofDouble d
  | .text s => Hash.ofText s
  | .blob bytes => Hash.ofBytes bytes
  | .fixed _ n => n.hash
  | .type t => Hash.ofText t.text
  | .list _ xs => hashAll (seed .list) xs
  | .set _ xs => hashAll (seed .set) xs
  | .map _ _ es => hashEntries (seed .map) es
  | .tuple _ xs => hashAll (seed .tuple) xs
  | .user _ xs => hashAll (seed .user) xs

def hashAll (h : UInt32) : List Value → UInt32
  | [] => h
  | x :: xs => hashAll (Hash.combine h x.hash) xs

def hashEntries (h : UInt32) : List (Value × Value) → UInt32
  | [] => h
  | (k, v) :: es => hashEntries (Hash.combine (Hash.combine h k.hash) v.hash) es

end

end Value

end Cql
