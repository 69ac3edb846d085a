namespace Cql

def enclosed (opening closing : Char) (items : List String) : String :=
  opening.toString ++ ", ".intercalate items ++ closing.toString

def inBraces (entries : List String) : String :=
  if entries.isEmpty then enclosed '{' '}' []
  else enclosed '{' '}' [" " ++ ", ".intercalate entries ++ " "]

def doubled (quote : Char) : List Char → List Char
  | [] => []
  | c :: s => if c = quote then quote :: quote :: doubled quote s else c :: doubled quote s

def quoteText (quote : Char) (s : String) : String :=
  String.ofList (quote :: (doubled quote s.toList ++ [quote]))

section Quotes

variable {quote : Char} {s t : List Char}

theorem doubled_append : doubled quote (s ++ t) = doubled quote s ++ doubled quote t := by
  induction s with
  | nil => rfl
  | cons c s ih =>
    rw [List.cons_append, doubled, doubled, ih]
    split <;> rfl

theorem doubled_of_plain (plain : quote ∉ s) : doubled quote s = s := by
  induction s with
  | nil => rfl
  | cons c s ih =>
    have other : quote ≠ c := List.ne_of_not_mem_cons plain
    rw [doubled, if_neg other.symm, ih (List.not_mem_of_not_mem_cons plain)]

@[simp] theorem toList_quoteText (s : String) :
    (quoteText quote s).toList = quote :: (doubled quote s.toList ++ [quote]) :=
  String.toList_ofList

end Quotes

theorem toList_enclosed {α : Type} (opening closing : Char) (items : List α)
    (text : α → String) :
    (enclosed opening closing (items.map text)).toList =
      opening :: ([',', ' '].intercalate (items.map fun x => (text x).toList) ++ [closing]) := by
  simp [enclosed, Function.comp_def]

end Cql
