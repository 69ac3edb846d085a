namespace Cql.Sorted

variable {α β : Type}

def insert (cmp : α → α → Ordering) (x : α) : List α → Bool × List α
  | [] => (true, [x])
  | y :: ys =>
    match cmp y x with
    | .lt =>
      let (added, rest) := insert cmp x ys
      (added, y :: rest)
    | .eq => (false, y :: ys)
    | .gt => (true, x :: y :: ys)

def contains (cmp : α → α → Ordering) (x : α) (items : List α) : Bool :=
  items.any fun y => cmp y x == .eq

/-- Stores `v` under `k`; the value that an equal key held before. A key once stored stays as it
was first written. -/
def put (cmp : α → α → Ordering) (k : α) (v : β) : List (α × β) → Option β × List (α × β)
  | [] => (none, [(k, v)])
  | (l, u) :: rest =>
    match cmp l k with
    | .lt =>
      let (old, rest) := put cmp k v rest
      (old, (l, u) :: rest)
    | .eq => (some u, (l, v) :: rest)
    | .gt => (none, (k, v) :: (l, u) :: rest)

def get? (cmp : α → α → Ordering) (k : α) (entries : List (α × β)) : Option β :=
  (entries.find? fun e => cmp e.1 k == .eq).map (·.2)

end Cql.Sorted
