namespace Cql.Sorted

variable {α : Type}

inductive Place
  | found (index : Nat)
  | vacant (index : Nat)
  deriving DecidableEq, Repr

/-- Looks within `window`, whose first item has the index `offset`, in at most that many steps.
`order` tells on which side of the item that is looked for another one stands. -/
def searchWithin (order : α → Ordering) : (steps offset : Nat) → (window : List α) → Place
  | 0, offset, _ => .vacant offset
  | steps + 1, offset, window =>
    let half := window.length / 2
    match window.drop half with
    | [] => .vacant offset
    | y :: later =>
      match order y with
      | .lt => searchWithin order steps (offset + half + 1) later
      | .eq => .found (offset + half)
      | .gt => searchWithin order steps offset (window.take half)

def search (order : α → Ordering) (items : List α) : Place :=
  searchWithin order items.length 0 items

end Cql.Sorted
