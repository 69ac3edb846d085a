import Cql.Proofs.Container.InPlace

namespace Cql.Container

variable {key value : Ty} {es after : List (Value × Value)} {k v : Value}

section Call

theorem held_putInPlace (increasing : Sorted.Increasing Value.cmp (es.map (·.1))) :
    ((putInPlace key value k v).on es).2 =
      match entry key value k v with
      | .ok e => (Sorted.put Value.cmp e.1 e.2 es).2
      | .error _ => es := by
  rw [putInPlace_eq increasing, put_eq_map_entry]
  cases entry key value k v <;> rfl

theorem increasing_putInPlace (increasing : Sorted.Increasing Value.cmp (es.map (·.1))) :
    Sorted.Increasing Value.cmp (((putInPlace key value k v).on es).2.map (·.1)) := by
  rw [held_putInPlace increasing]
  split
  · exact Sorted.increasing_put increasing _ _
  · exact increasing

theorem error_of_putInPlace {fault : Fault}
    (increasing : Sorted.Increasing Value.cmp (es.map (·.1)))
    (call : (putInPlace key value k v).on es = (.error fault, after)) :
    entry key value k v = .error fault ∧ after = es := by
  rwa [putInPlace_eq increasing, settle_eq_error_iff, put_eq_map_entry, map_eq_error_iff] at call

theorem change_of_putInPlace {old : Option Value}
    (increasing : Sorted.Increasing Value.cmp (es.map (·.1)))
    (call : (putInPlace key value k v).on es = (.ok old, after)) :
    ∃ l w, entry key value k v = .ok (l, w) ∧ old = get? es l ∧
      (∀ x, valueOf? after x = if l.cmp x = .eq then some w else valueOf? es x) ∧
      after.length = if old.isNone then es.length + 1 else es.length := by
  rw [putInPlace_eq increasing, settle_eq_ok_iff, put_eq_map_entry] at call
  obtain ⟨⟨l, w⟩, made, put⟩ := map_eq_ok_iff.mp call
  have given : old = get? es l :=
    (congrArg Prod.fst put).symm.trans (Sorted.put_fst increasing l w)
  obtain rfl : (Sorted.put Value.cmp l w es).2 = after := congrArg Prod.snd put
  refine ⟨l, w, made, given, fun x => ?_, ?_⟩
  · rw [valueOf?_eq increasing, valueOf?_eq (Sorted.increasing_put increasing l w)]
    exact Sorted.get?_put increasing l x w
  · rw [given]
    exact Sorted.length_put increasing l w

end Call

section Calls

def putAll (key value : Ty) (calls : List (Value × Value)) : List (Value × Value) :=
  calls.foldl (fun es c => ((putInPlace key value c.1 c.2).on es).2) []

def entriesOf (key value : Ty) (calls : List (Value × Value)) : List (Value × Value) :=
  calls.filterMap fun c => (entry key value c.1 c.2).toOption

/-- The value of the last of the entries whose key is equal to `x`. -/
def latest (entries : List (Value × Value)) (x : Value) : Option Value :=
  (entries.reverse.find? fun e => e.1.cmp x == .eq).map (·.2)

theorem putAll_concat (calls : List (Value × Value)) (c : Value × Value) :
    putAll key value (calls ++ [c]) =
      ((putInPlace key value c.1 c.2).on (putAll key value calls)).2 := by
  simp [putAll]

theorem entriesOf_concat (calls : List (Value × Value)) (c : Value × Value) :
    entriesOf key value (calls ++ [c]) =
      entriesOf key value calls ++ (entry key value c.1 c.2).toOption.toList := by
  unfold entriesOf
  rw [List.filterMap_append]
  cases made : (entry key value c.1 c.2).toOption <;> simp [made]

theorem latest_concat (entries : List (Value × Value)) (e : Value × Value) (x : Value) :
    latest (entries ++ [e]) x = if e.1.cmp x = .eq then some e.2 else latest entries x := by
  unfold latest
  rw [List.reverse_concat, List.find?_cons]
  cases order : e.1.cmp x <;> simp

theorem increasing_putAll (key value : Ty) (calls : List (Value × Value)) :
    Sorted.Increasing Value.cmp ((putAll key value calls).map (·.1)) := by
  induction calls using List.reverseRecOn with
  | nil => exact .nil
  | append_singleton calls c ih =>
    rw [putAll_concat]
    exact increasing_putInPlace ih

theorem get?_putAll (key value : Ty) (calls : List (Value × Value)) (x : Value) :
    get? (putAll key value calls) x = latest (entriesOf key value calls) x := by
  induction calls using List.reverseRecOn with
  | nil => rfl
  | append_singleton calls c ih =>
    have increasing := increasing_putAll key value calls
    rw [putAll_concat, held_putInPlace increasing, entriesOf_concat]
    cases entry key value c.1 c.2 with
    | error fault => simpa [Except.toOption] using ih
    | ok e =>
      simp only [Except.toOption, Option.toList_some]
      rw [latest_concat, ← ih]
      exact Sorted.get?_put increasing e.1 x e.2

/-- A map refines the finite map that its calls describe, in which each key has the value of the
latest call that was done with an equal key. This is what looking up gives and what the next call
that is done gives back; it changes one key, and a call that is refused changes nothing. -/
theorem putAll_refines (key value : Ty) (calls : List (Value × Value)) :
    let es := putAll key value calls
    let done := entriesOf key value calls
    Sorted.Increasing Value.cmp (es.map (·.1)) ∧
      (∀ x, valueOf? es x = latest done x ∧ valueOf? es x = get? es x ∧
        (∀ e ∈ es, e.1.cmp x = .eq → valueOf? es x = some e.2) ∧
        ((∀ e ∈ es, e.1.cmp x ≠ .eq) → valueOf? es x = none)) ∧
      ∀ k v, (putInPlace key value k v).on es = settle es (put key value es k v) ∧
        (∀ fault after, (putInPlace key value k v).on es = (.error fault, after) →
          entry key value k v = .error fault ∧ after = es) ∧
        ∀ old after, (putInPlace key value k v).on es = (.ok old, after) →
          ∃ l w, entry key value k v = .ok (l, w) ∧ key.coerce k = .ok l ∧ value.coerce v = .ok w ∧
            old = latest done l ∧
            (∀ x, valueOf? after x = if l.cmp x = .eq then some w else valueOf? es x) ∧
            after.length = if old.isNone then es.length + 1 else es.length := by
  intro es done
  have increasing : Sorted.Increasing Value.cmp (es.map (·.1)) := increasing_putAll key value calls
  have found (x : Value) : valueOf? es x = get? es x := valueOf?_eq increasing x
  refine ⟨increasing, fun x => ⟨?_, found x, ?_, ?_⟩, fun k v => ⟨?_, ?_, ?_⟩⟩
  · exact (found x).trans (get?_putAll key value calls x)
  · exact fun e he equal => (found x).trans (Sorted.get?_of_mem increasing he equal)
  · exact fun other => (found x).trans (Sorted.get?_eq_none other)
  · exact putInPlace_eq increasing
  · exact fun fault after => error_of_putInPlace increasing
  · intro old after call
    obtain ⟨l, w, made, given, others, size⟩ := change_of_putInPlace increasing call
    obtain ⟨first, second⟩ := entry_eq_ok_iff.mp made
    have former : old = latest done l := given.trans (get?_putAll key value calls l)
    exact ⟨l, w, made, (element_eq_ok_iff.mp first).2, (element_eq_ok_iff.mp second).2, former,
      others, size⟩

theorem putAll_refines_replaced :
    let int : Ty := .scalar .int
    let text : Ty := .scalar .text
    let one : Value := .fixed .int ⟨1, by decide, by decide⟩
    let long : Value := .long ⟨1, by decide, by decide⟩
    let es := putAll int text [(long, .text "a"), (.text "one", .text "b")]
    es = [(one, .text "a")] ∧
      (putInPlace int text one (.text "c")).on es = (.ok (some (.text "a")), [(one, .text "c")]) ∧
      valueOf? [(one, .text "c")] one = some (.text "c") ∧
      valueOf? [(one, .text "c")] long = valueOf? es long := by
  intro int text one long es
  obtain ⟨-, -, calls⟩ := putAll_refines int text [(long, .text "a"), (.text "one", .text "b")]
  obtain ⟨-, -, changed⟩ := calls one (.text "c")
  have call : (putInPlace int text one (.text "c")).on es =
      (.ok (some (.text "a")), [(one, .text "c")]) := by
    subst int text one long es
    rfl
  obtain ⟨l, w, made, -, -, -, others, -⟩ := changed _ _ call
  cases made
  exact ⟨rfl, call, others one, others long⟩

end Calls

end Cql.Container
