import Cql.Double

namespace Cql.Hash

def ofSmall (n : Int) : UInt32 := 31 * 17 + UInt32.ofInt n

def ofLong (n : Int) : UInt32 :=
  let v := UInt64.ofInt n
  (v ^^^ (v >>> 32)).toUInt32

def combine (seed hash : UInt32) : UInt32 :=
  seed ^^^ (hash + (0x9e3779b9 : UInt32) + (seed <<< 6) + (seed >>> 2))

def ofBytes (bytes : List UInt8) : UInt32 := bytes.foldl (fun h b => h * 33 + b.toUInt32) 5381

def ofText (s : String) : UInt32 := ofBytes s.toUTF8.data.toList

def ofDouble (d : Double) : UInt32 := ofLong d.canonicalBits

end Cql.Hash
