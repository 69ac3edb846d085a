import Cql.Proofs.Container.Map
import Cql.Proofs.Container.Set
import Cql.Proofs.Value.WellTyped

/-!
Whether sets and maps find what has just been put in. It is put in in its stored form, and in this
form it is always found; but it is looked for as it is. So an integer of the host language that the
type of the elements or of the keys stores as one of its own is never found.
-/

namespace Cql

namespace Ty

/-- Whether the type stores the value in another form than it has: an integer of the host language,
where the column has integers of its own. -/
def reforms : Ty → Value → Bool
  | .scalar .int, .long _ | .scalar .bigint, .long _ | .scalar .counter, .long _ => true
  | _, _ => false

variable {t : Ty} {v w x : Value}

theorem reforms_long {n : Long} :
    t.reforms (.long n) ↔ t = .scalar .int ∨ t = .scalar .bigint ∨ t = .scalar .counter := by
  cases t with
  | scalar s => cases s <;> simp [reforms]
  | _ => simp [reforms]

theorem reforms_of_not_long (other : v.kind ≠ .long) : t.reforms v = false := by
  unfold reforms
  split <;> first | rfl | exact absurd rfl other

theorem reforms_eq_false_iff (coerced : t.coerce v = .ok w) : t.reforms v = false ↔ w = v := by
  by_cases long : v.kind = .long
  · obtain ⟨n, rfl⟩ := Value.exists_eq_long long
    rw [← Bool.not_eq_true, reforms_long]
    rcases coerce_long coerced with ⟨m, rfl, -, rfl⟩ | ⟨rfl | rfl, rfl⟩ | ⟨a, b, c, rfl⟩
    · simp
    · simp
    · simp
    · simp [a, b, c]
  · rw [coerce_of_not_long long (accepts_of_coerce coerced)] at coerced
    exact ⟨fun _ => (Except.ok.inj coerced).symm, fun _ => reforms_of_not_long long⟩

theorem cmp_ne_eq_of_reforms (fits : Value.Fits t x) (other : t.reforms v) : x.cmp v ≠ .eq := by
  intro equal
  have long : v.kind = .long := by
    by_contra long
    rw [reforms_of_not_long long] at other
    contradiction
  obtain ⟨n, rfl⟩ := Value.exists_eq_long long
  -- Apart from doubles within it a value is equal only to itself.
  have same : x = .long n := by
    have canonical := (Value.cmp_eq_iff _ _).mp equal
    cases x <;> simp_all [Value.canonical]
  subst same
  rw [(reforms_eq_false_iff fits).mpr rfl] at other
  contradiction

end Ty

namespace Container

section Sets

variable {t : Ty} {xs after : List Value} {v w : Value} {added : Bool}

theorem stored_insertInPlace (increasing : Sorted.Increasing Value.cmp xs)
    (stored : ∀ x ∈ xs, Value.Stored t x) :
    ∀ x ∈ ((insertInPlace t v).on xs).2, Value.Stored t x := by
  rw [held_insertInPlace increasing]
  cases made : element t v with
  | error fault => exact stored
  | ok w =>
    intro x hx
    rcases Sorted.mem_of_mem_insert hx with rfl | hx
    · exact Value.stored_of_element made
    · exact stored x hx

/-- A set finds the stored form of what has just been put in, and what has been put in itself if
this is its stored form. -/
theorem holds_of_insertInPlace (increasing : Sorted.Increasing Value.cmp xs)
    (stored : ∀ x ∈ xs, Value.Stored t x)
    (call : (insertInPlace t v).on xs = (.ok added, after)) :
    ∃ w, t.coerce v = .ok w ∧ holds after w ∧ holds after v = !t.reforms v := by
  obtain ⟨w, made, new, items, -⟩ := change_of_insertInPlace increasing call
  have coerced := (element_eq_ok_iff.mp made).2
  have increasing' : Sorted.Increasing Value.cmp after := by
    simpa [call] using increasing_insertInPlace (t := t) (v := v) increasing
  have stored' : ∀ x ∈ after, Value.Stored t x := by
    simpa [call] using stored_insertInPlace (v := v) increasing stored
  have found : holds after w := by
    rw [holds_iff increasing']
    cases added with
    | true => exact ⟨w, items.mem_iff.mpr List.mem_cons_self, Std.ReflCmp.compare_self⟩
    | false =>
      obtain ⟨x, member, equal⟩ : ∃ x ∈ xs, x.cmp w = .eq := by simpa using new
      exact ⟨x, items.mem_iff.mpr member, equal⟩
  refine ⟨w, coerced, found, ?_⟩
  cases other : t.reforms v with
  | false =>
    rw [(Ty.reforms_eq_false_iff coerced).mp other] at found
    exact found
  | true =>
    rw [Bool.not_true, ← Bool.not_eq_true, holds_iff increasing']
    rintro ⟨x, member, equal⟩
    exact Ty.cmp_ne_eq_of_reforms (Value.fits_of_stored (stored' x member)) other equal

end Sets

section Maps

variable {key value : Ty} {es after : List (Value × Value)} {k v : Value} {old : Option Value}

theorem valueOf?_of_putInPlace (increasing : Sorted.Increasing Value.cmp (es.map (·.1)))
    (stored : ∀ e ∈ es, Value.Stored key e.1)
    (call : (putInPlace key value k v).on es = (.ok old, after)) :
    ∃ l w, key.coerce k = .ok l ∧ value.coerce v = .ok w ∧ valueOf? after l = some w ∧
      valueOf? after k = if key.reforms k then none else some w := by
  obtain ⟨l, w, made, -, others, -⟩ := change_of_putInPlace increasing call
  obtain ⟨first, second⟩ := entry_eq_ok_iff.mp made
  have coerced : key.coerce k = .ok l := (element_eq_ok_iff.mp first).2
  have found : valueOf? after l = some w := by
    rw [others, if_pos Std.ReflCmp.compare_self]
  refine ⟨l, w, coerced, (element_eq_ok_iff.mp second).2, found, ?_⟩
  cases other : key.reforms k with
  | false =>
    rw [(Ty.reforms_eq_false_iff coerced).mp other] at found
    simpa using found
  | true =>
    have apart : l.cmp k ≠ .eq := Ty.cmp_ne_eq_of_reforms (Ty.coerce_idem coerced) other
    rw [others, if_neg apart, valueOf?_eq increasing, if_pos rfl]
    exact Sorted.get?_eq_none fun e he =>
      Ty.cmp_ne_eq_of_reforms (Value.fits_of_stored (stored e he)) other

end Maps

section Reached

open Value (Reached)

/-- Whatever calls led to a set or a map, after one more call that is done the stored form of its
argument, of its key in a map, is found there, with the stored form of the value. The argument
itself is found exactly if it is not an integer of the host language among elements or keys of an
integer type, which stores it in another form; such a key has no value in the map. -/
theorem found_after_call {t key value : Ty} {xs : List Value} {es : List (Value × Value)}
    (set : Reached (.set t xs)) (map : Reached (.map key value es)) :
    (∀ v added after, (insertInPlace t v).on xs = (.ok added, after) →
      ∃ w, t.coerce v = .ok w ∧ holds after w ∧ holds after v = !t.reforms v) ∧
    ∀ k v old after, (putInPlace key value k v).on es = (.ok old, after) →
      ∃ l w, key.coerce k = .ok l ∧ value.coerce v = .ok w ∧ valueOf? after l = some w ∧
        valueOf? after k = if key.reforms k then none else some w := by
  constructor
  · intro v added after call
    cases set.built.sound with
    | atom h => contradiction
    | set stored _ increasing => exact holds_of_insertInPlace increasing stored call
  · intro k v old after call
    cases map.built.sound with
    | atom h => contradiction
    | map stored _ _ increasing =>
      exact valueOf?_of_putInPlace increasing (fun e he => (stored e he).1) call

theorem found_after_call_again :
    let text : Ty := .scalar .text
    let bigint : Ty := .scalar .bigint
    let seven : Value := .fixed .bigint ⟨7, by decide, by decide⟩
    let long : Value := .long ⟨7, by decide, by decide⟩
    (insertInPlace text (.text "a")).on [.text "a"] = (.ok false, [.text "a"]) ∧
      holds [.text "a"] (.text "a") ∧
      (putInPlace bigint text seven (.text "b")).on [(seven, .text "a")] =
        (.ok (some (.text "a")), [(seven, .text "b")]) ∧
      valueOf? [(seven, .text "b")] seven = some (.text "b") ∧
      valueOf? [(seven, .text "b")] long = none := by
  intro text bigint seven long
  have set : Reached (.set text [.text "a"]) :=
    .insert (v := .text "a") (.emptySet text) (.atom rfl)
  have map : Reached (.map bigint text [(seven, .text "a")]) :=
    .put (k := seven) (v := .text "a") (.emptyMap bigint text) (.atom rfl) (.atom rfl)
  have inserted : (insertInPlace text (.text "a")).on [.text "a"] = (.ok false, [.text "a"]) := rfl
  have put : (putInPlace bigint text seven (.text "b")).on [(seven, .text "a")] =
      (.ok (some (.text "a")), [(seven, .text "b")]) := by
    subst bigint text seven
    rfl
  have again : (putInPlace bigint text long (.text "b")).on [(seven, .text "a")] =
      (.ok (some (.text "a")), [(seven, .text "b")]) := by
    subst bigint text seven long
    rfl
  obtain ⟨found, replaced⟩ := found_after_call set map
  obtain ⟨-, -, -, here⟩ := found _ _ _ inserted
  obtain ⟨-, w, -, made, -, there⟩ := replaced _ _ _ _ put
  obtain ⟨-, _, -, -, -, lost⟩ := replaced _ _ _ _ again
  obtain rfl : .text "b" = w := Except.ok.inj made
  exact ⟨inserted, here, put, there, lost⟩

/-- An integer of the host language that has been put into a set of integers is not found there,
though it is no new one when it is put in again; and as the key of a map it has no value. -/
theorem not_found_after_call :
    let int : Ty := .scalar .int
    let text : Ty := .scalar .text
    let five : Value := .fixed .int ⟨5, by decide, by decide⟩
    let long : Value := .long ⟨5, by decide, by decide⟩
    (insertInPlace int long).on [] = (.ok true, [five]) ∧
      (insertInPlace int long).on [five] = (.ok false, [five]) ∧ holds [five] long = false ∧
      (putInPlace int text long (.text "a")).on [] = (.ok none, [(five, .text "a")]) ∧
      valueOf? [(five, .text "a")] long = none ∧
      ¬ ((∀ t xs, Reached (.set t xs) → ∀ v added after,
          (insertInPlace t v).on xs = (.ok added, after) → holds after v) ∧
        ∀ key value es, Reached (.map key value es) → ∀ k v old after,
          (putInPlace key value k v).on es = (.ok old, after) →
            ∃ w, value.coerce v = .ok w ∧ valueOf? after k = some w) := by
  intro int text five long
  have lost : holds [five] long = false := by
    subst five long
    rfl
  have again : (insertInPlace int long).on [five] = (.ok false, [five]) := by
    subst int five long
    rfl
  have gone : valueOf? [(five, .text "a")] long = none := by
    subst five long
    rfl
  refine ⟨rfl, again, lost, rfl, gone, ?_⟩
  rintro ⟨found, -⟩
  have there : holds [five] long := found int [] (.emptySet int) long true [five] rfl
  rw [lost] at there
  contradiction

end Reached

end Container

end Cql
