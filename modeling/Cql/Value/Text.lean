import Cql.Hex
import Cql.Text.Enclosed
import Cql.Value

namespace Cql

namespace Value

mutual

def toText : Value → String
  | .null => "null"
  | .bool b => toString b
  | .long n => n.text
  | .double d => d.text
  | .text s => quoteText '\'' s
  | .blob bytes => Hex.text bytes
  | .fixed _ n => n.text
  | .type t => t.text
  | .list _ xs => enclosed '[' ']' (texts xs)
  | .set _ xs => enclosed '{' '}' (texts xs)
  | .map _ _ es => enclosed '{' '}' (entryTexts es)
  | .tuple _ xs => enclosed '(' ')' (texts xs)
  | .user u xs => enclosed '{' '}' (slotTexts u.fields xs)

def texts : List Value → List String
  | [] => []
  | x :: xs => x.toText :: texts xs

def entryTexts : List (Value × Value) → List String
  | [] => []
  | (k, v) :: es => (k.toText ++ ": " ++ v.toText) :: entryTexts es

def slotTexts : List (String × Ty) → List Value → List String
  | (name, _) :: fields, x :: xs => (name ++ ": " ++ x.toText) :: slotTexts fields xs
  | _, _ => []

end

instance : ToString Value := ⟨toText⟩

end Value

end Cql
