import Cql.Hex
import Cql.Json
import Cql.Value

namespace Cql.Value

mutual

def toJson : Value → Json
  | .null => .null
  | .bool b => .bool b
  | .long n => .int n.val
  | .double d => if d.isFinite then .double d else .null
  | .text s => .text s
  | .blob bytes => .text (Hex.text bytes)
  | .fixed _ n => .int n.val
  | .type t => .text t.text
  | .list _ xs => .array (jsons xs)
  | .set _ xs => .array (jsons xs)
  | .map _ _ es => .array (entryJsons es)
  | .tuple _ xs => .array (jsons xs)
  | .user u xs => .ofMembers (slotJsons u.fields xs)

def jsons : List Value → List Json
  | [] => []
  | x :: xs => x.toJson :: jsons xs

def entryJsons : List (Value × Value) → List Json
  | [] => []
  | (k, v) :: es => .array [k.toJson, v.toJson] :: entryJsons es

def slotJsons : List (String × Ty) → List Value → List (String × Json)
  | (name, _) :: fields, x :: xs => (name, x.toJson) :: slotJsons fields xs
  | _, _ => []

end

end Cql.Value
