namespace Cql

def foldCase (s : String) : String := String.ofList (s.toList.map Char.toLower)

def sameName (a b : String) : Bool := foldCase a == foldCase b

theorem sameName_iff (a b : String) : sameName a b = true ↔ foldCase a = foldCase b := by
  simp [sameName]

end Cql
