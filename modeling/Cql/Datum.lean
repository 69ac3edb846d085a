import Cql.Fixed

namespace Cql

inductive Datum
  | bool (b : Bool)
  | int (n : Long)
  | double (d : Double)
  | text (s : String)
  | array (items : List Datum)
  | table (entries : List (String × Datum))
  deriving Repr

end Cql
