import Cql.Datum

namespace Cql

class ConfigTree (α : Type) where
  isNull : α → Bool
  text? : α → Option String
  flag? : α → Option Bool
  items? : α → Option (List α)
  members? : List String → α → Option (List (Option α))
  choice? : α → Option String
  options? : α → Option (List (String × Datum))

namespace ConfigTree

variable {α β : Type}

def named (names : List String) (entries : List (String × α)) : List (Option α) :=
  names.map fun name => entries.lookup name

/-- The members of a record given in order. Those at the end may be left out, and items behind the
last member are passed over. -/
def inOrder (names : List String) (items : List α) : List (Option α) :=
  (items.map some ++ List.replicate names.length none).take names.length

variable [ConfigTree α]

def text (member : Option α) : Option String := member.bind text?

def optionalText : Option α → Option (Option String)
  | none => some none
  | some t => if isNull t then some none else (text? t).map some

def flag : Option α → Option Bool
  | none => some false
  | some t => flag? t

def items (item : α → Option β) (member : Option α) : Option (List β) := do
  (← items? (← member)).mapM item

def optionalItems (item : α → Option β) : Option α → Option (List β)
  | none => some []
  | some t => items item (some t)

def optionalOptions : Option α → Option (Option (List (String × Datum)))
  | none => some none
  | some t => if isNull t then some none else (options? t).map some

end ConfigTree

end Cql
