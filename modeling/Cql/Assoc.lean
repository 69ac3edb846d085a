namespace Cql.Assoc

variable {α β : Type} [DecidableEq α]

def put (k : α) (v : β) : List (α × β) → List (α × β)
  | [] => [(k, v)]
  | (l, u) :: rest => if l = k then (l, v) :: rest else (l, u) :: put k v rest

def ofList (entries : List (α × β)) : List (α × β) :=
  entries.foldl (fun found e => put e.1 e.2 found) []

theorem lookup_cons (k l : α) (v : β) (rest : List (α × β)) :
    ((k, v) :: rest).lookup l = if l = k then some v else rest.lookup l := by
  by_cases h : l = k
  · simp [h]
  · simp [List.lookup_cons, beq_false_of_ne h, h]

theorem keys_put (k : α) (v : β) (entries : List (α × β)) :
    (put k v entries).map (·.1) =
      if k ∈ entries.map (·.1) then entries.map (·.1) else entries.map (·.1) ++ [k] := by
  induction entries with
  | nil => simp [put]
  | cons e rest ih =>
    by_cases same : e.1 = k
    · simp [put, same]
    · have other : ¬ k = e.1 := fun h => same h.symm
      simp only [put, same, if_false, List.map_cons, List.mem_cons, other, false_or, ih]
      split <;> simp

end Cql.Assoc
