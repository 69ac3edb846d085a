import Cql.Proofs.Literal.Reader
import Cql.Proofs.Schema.Keyspace
import Cql.Proofs.Value.WellTyped

namespace Cql

def Reader.Gives {α : Type} (Q : α → Prop) (item : Reader α) : Prop :=
  ∀ s x rest, item s = .ok (x, rest) → Q x

theorem Reader.gives_list {α : Type} {Q : α → Prop} {item : Reader α} (closing : Char)
    (gives : Gives Q item) : Gives (∀ x ∈ ·, Q x) (list item closing) := by
  intro s xs rest h
  have within : Within Q item item := fun {s x rest} read => ⟨read, gives s x rest read⟩
  exact (within_list within h).2

namespace Ty

variable {t : Ty} {s : Scalar} {v : Value}

theorem atomic_of_accepts (h : (Ty.scalar s).accepts v) : v.isComposite = false := by
  cases v with
  | list | set | map | tuple | user => cases s <;> contradiction
  | _ => rfl

theorem kind_ne_long_of_accepts (composite : t.isScalar = false) (h : t.accepts v) :
    v.kind ≠ .long := by
  intro long
  obtain ⟨n, rfl⟩ := Value.exists_eq_long long
  cases t <;> contradiction

/-- What a type creates it stores as it is, unless that is an integer of the host language. -/
theorem fits_of_create {args : List Value} (composite : t.isScalar = false)
    (h : t.create args = .ok v) : Value.Fits t v := by
  have accepted := Value.accepts_of_create h
  exact coerce_of_not_long (kind_ne_long_of_accepts composite accepted) accepted

end Ty

namespace Token

variable {token : Token} {v : Value}

theorem exists_bool_of_toBool (h : token.toBool = .ok v) : ∃ b, v = .bool b := by
  unfold toBool at h
  split at h
  · exact ⟨true, (Except.ok.inj h).symm⟩
  · exact ⟨false, (Except.ok.inj h).symm⟩
  · contradiction

theorem exists_long_of_toLong (h : token.toLong = .ok v) : ∃ n, v = .long n := by
  unfold toLong at h
  split at h
  · obtain ⟨n, -, rfl⟩ := map_eq_ok_iff.mp h
    exact ⟨n, rfl⟩
  · contradiction

theorem exists_blob_of_toBlob (h : token.toBlob = .ok v) : ∃ bytes, v = .blob bytes := by
  unfold toBlob at h
  dsimp only at h
  split at h
  · split at h
    · split at h
      · exact ⟨_, (Except.ok.inj h).symm⟩
      · contradiction
    · exact ⟨_, (Except.ok.inj h).symm⟩
  · exact ⟨_, (Except.ok.inj h).symm⟩

theorem fits_of_toValue {k : Scalar} (h : token.toValue k = .ok v) :
    Value.Fits (.scalar k) v := by
  cases k with
  | tinyint | smallint | int | bigint | counter =>
    obtain ⟨n, -, rfl⟩ := map_eq_ok_iff.mp h
    rfl
  | double | float =>
    simp only [toValue] at h
    split at h
    · obtain rfl := Except.ok.inj h
      rfl
    · contradiction
  | boolean =>
    obtain ⟨b, rfl⟩ := exists_bool_of_toBool h
    rfl
  | timestamp | date | time =>
    obtain ⟨n, rfl⟩ := exists_long_of_toLong h
    rfl
  | blob =>
    obtain ⟨bytes, rfl⟩ := exists_blob_of_toBlob h
    rfl
  | _ =>
    obtain rfl := Except.ok.inj h
    rfl

end Token

namespace Literal

open Reader (Gives)
open Value (Sound Fits)

variable {input : String} {t : Ty} {v : Value} {s rest : List Char}

/-- What a value was made from that has been read: null, a token, or what has been read for the
components of the type. -/
inductive Origin (input : String) : Ty → Value → Prop
  | null (t : Ty) : Origin input t .null
  | scalar {k : Scalar} {token : Token} {v : Value} (denoted : token.toValue k = .ok v) :
      Origin input (.scalar k) v
  | list {e : Ty} {s rest : List Char} {xs : List Value} {v : Value}
      (items : Reader.list (reader input e) ']' s = .ok (xs, rest))
      (made : (Ty.list e).create xs = .ok v) : Origin input (.list e) v
  | set {e : Ty} {s rest : List Char} {xs : List Value} {v : Value}
      (items : Reader.list (reader input e) '}' s = .ok (xs, rest))
      (made : (Ty.set e).create xs = .ok v) : Origin input (.set e) v
  | map {key value : Ty} {s rest : List Char} {entries : List (List Value)} {v : Value}
      (items : Reader.list (entryReader (reader input key) (reader input value)) '}' s =
        .ok (entries, rest))
      (made : (Ty.map key value).create entries.flatten = .ok v) : Origin input (.map key value) v
  | emptyTuple {ts : List Ty} {v : Value} (made : (Ty.tuple ts).create [] = .ok v) :
      Origin input (.tuple ts) v
  | tuple {ts : List Ty} {s rest : List Char} {xs : List Value} {v : Value}
      (slots : slotsReader input ts.length ts s = .ok (xs, rest))
      (made : (Ty.tuple ts).create xs = .ok v) : Origin input (.tuple ts) v
  | user {label : Option Label} {fields : List (String × Ty)} {s rest : List Char}
      {slots : List (List Value)} {v : Value}
      (items : Reader.list (fieldReader (fieldReaders input fields)) '}' s = .ok (slots, rest))
      (made : (Ty.user label fields).create slots.flatten = .ok v) :
      Origin input (.user label fields) v

theorem eq_null_of_null? {left : List Char} (null : null? s = some left)
    (h : reader input t s = .ok (v, rest)) : v = .null := by
  rw [reader_of_null? null] at h
  exact (congrArg Prod.fst (Except.ok.inj h)).symm

theorem origin_of_reader (h : reader input t s = .ok (v, rest)) : Origin input t v := by
  cases null : null? s with
  | some left =>
    obtain rfl := eq_null_of_null? null h
    exact .null t
  | none =>
    cases t with
    | scalar k =>
      simp only [reader, null] at h
      obtain ⟨⟨token, u⟩, -, left⟩ := bind_eq_ok_iff.mp h
      exact .scalar (made_eq_ok_iff.mp left).1
    | list e =>
      simp only [reader, null] at h
      obtain ⟨u, -, left⟩ := bind_eq_ok_iff.mp h
      obtain ⟨⟨xs, w⟩, items, left⟩ := bind_eq_ok_iff.mp left
      exact .list items (made_eq_ok_iff.mp left).1
    | set e =>
      simp only [reader, null] at h
      obtain ⟨u, -, left⟩ := bind_eq_ok_iff.mp h
      obtain ⟨⟨xs, w⟩, items, left⟩ := bind_eq_ok_iff.mp left
      exact .set items (made_eq_ok_iff.mp left).1
    | map key value =>
      simp only [reader, null] at h
      obtain ⟨u, -, left⟩ := bind_eq_ok_iff.mp h
      obtain ⟨⟨entries, w⟩, items, left⟩ := bind_eq_ok_iff.mp left
      exact .map items (made_eq_ok_iff.mp left).1
    | tuple ts =>
      simp only [reader, null] at h
      obtain ⟨u, -, left⟩ := bind_eq_ok_iff.mp h
      split at left
      · obtain ⟨⟨xs, w⟩, slots, left⟩ := bind_eq_ok_iff.mp left
        obtain ⟨rfl, -⟩ : [] = xs ∧ _ = w := by simpa using slots
        exact .emptyTuple (made_eq_ok_iff.mp left).1
      · obtain ⟨⟨xs, w⟩, slots, left⟩ := bind_eq_ok_iff.mp left
        exact .tuple slots (made_eq_ok_iff.mp left).1
    | user label fields =>
      simp only [reader, null] at h
      obtain ⟨u, -, left⟩ := bind_eq_ok_iff.mp h
      obtain ⟨⟨slots, w⟩, items, left⟩ := bind_eq_ok_iff.mp left
      exact .user items (made_eq_ok_iff.mp left).1

theorem fits_of_reader (h : reader input t s = .ok (v, rest)) : Fits t v := by
  cases origin_of_reader h with
  | null => exact Ty.coerce_null t
  | scalar denoted => exact Token.fits_of_toValue denoted
  | list _ made | set _ made | map _ made | emptyTuple made | tuple _ made | user _ made =>
    exact Ty.fits_of_create rfl made

theorem gives_entryReader {Q : Value → Prop} {key value : Reader Value} (keys : Gives Q key)
    (values : Gives Q value) : Gives (∀ x ∈ ·, Q x) (entryReader key value) := by
  intro s xs rest h
  unfold entryReader at h
  obtain ⟨⟨k, r⟩, first, left⟩ := bind_eq_ok_iff.mp h
  obtain ⟨u, -, left⟩ := bind_eq_ok_iff.mp left
  obtain ⟨⟨v, w⟩, second, done⟩ := bind_eq_ok_iff.mp left
  obtain ⟨rfl, rfl⟩ : [k, v] = xs ∧ w = rest := by simpa [pure, Except.pure] using done
  simpa using ⟨keys _ _ _ first, values _ _ _ second⟩

theorem gives_fieldReader {fields : List (String × Reader Value)}
    (gives : ∀ f ∈ fields, Gives Sound f.2) : Gives (∀ x ∈ ·, Sound x) (fieldReader fields) := by
  intro s xs rest h
  unfold fieldReader at h
  obtain ⟨⟨name, r⟩, -, left⟩ := bind_eq_ok_iff.mp h
  dsimp only at left
  split at left
  · rename_i value found
    obtain ⟨u, -, left⟩ := bind_eq_ok_iff.mp left
    obtain ⟨⟨v, w⟩, read, done⟩ := bind_eq_ok_iff.mp left
    obtain ⟨rfl, rfl⟩ : [.text name, v] = xs ∧ w = rest := by simpa [pure, Except.pure] using done
    have member : (name, value) ∈ fields := by
      obtain ⟨before, after, rfl, -⟩ := List.lookup_eq_some_iff.mp found
      simp
    have own : Sound (.text name) := .atom rfl
    simpa using ⟨own, gives _ member _ _ _ read⟩
  · contradiction

theorem sound_of_flatten {entries : List (List Value)} (parts : ∀ xs ∈ entries, ∀ x ∈ xs, Sound x) :
    ∀ x ∈ entries.flatten, Sound x := by
  intro x hx
  obtain ⟨xs, member, inner⟩ := List.mem_flatten.mp hx
  exact parts xs member x inner

mutual

/-- What is read is put together from sound parts by creating a value of the type. -/
theorem gives_reader (input : String) : (t : Ty) → Gives Sound (reader input t)
  | .scalar k => by
    intro s v rest h
    have accepted := Ty.accepts_of_coerce (fits_of_reader h)
    exact .atom (Ty.atomic_of_accepts accepted)
  | .list e => by
    intro s v rest h
    cases origin_of_reader h with
    | null => exact .atom rfl
    | list items made =>
      exact Value.sound_create (Reader.gives_list _ (gives_reader input e) _ _ _ items) made
  | .set e => by
    intro s v rest h
    cases origin_of_reader h with
    | null => exact .atom rfl
    | set items made =>
      exact Value.sound_create (Reader.gives_list _ (gives_reader input e) _ _ _ items) made
  | .map key value => by
    intro s v rest h
    cases origin_of_reader h with
    | null => exact .atom rfl
    | map items made =>
      have entries := gives_entryReader (gives_reader input key) (gives_reader input value)
      exact Value.sound_create (sound_of_flatten (Reader.gives_list _ entries _ _ _ items)) made
  | .tuple ts => by
    intro s v rest h
    cases origin_of_reader h with
    | null => exact .atom rfl
    | emptyTuple made => exact Value.sound_create (by simp) made
    | tuple slots made =>
      exact Value.sound_create (gives_slotsReader input ts.length ts _ _ _ slots) made
  | .user label fields => by
    intro s v rest h
    cases origin_of_reader h with
    | null => exact .atom rfl
    | user items made =>
      have slots := gives_fieldReader (gives_fieldReaders input fields)
      exact Value.sound_create (sound_of_flatten (Reader.gives_list _ slots _ _ _ items)) made

theorem gives_slotsReader (input : String) (size : Nat) :
    (ts : List Ty) → Gives (∀ x ∈ ·, Sound x) (slotsReader input size ts)
  | [] => by
    intro s xs rest h
    simp [slotsReader] at h
  | t :: ts => by
    intro s xs rest h
    rw [slotsReader] at h
    obtain ⟨⟨x, u⟩, first, left⟩ := bind_eq_ok_iff.mp h
    have here := gives_reader input t _ _ _ first
    dsimp only at left
    split at left
    · obtain ⟨rfl, -⟩ : [x] = xs ∧ _ = rest := by simpa [pure, Except.pure] using left
      simpa using here
    · obtain ⟨w, -, left⟩ := bind_eq_ok_iff.mp left
      obtain ⟨⟨ys, z⟩, others, done⟩ := bind_eq_ok_iff.mp left
      obtain ⟨rfl, -⟩ : x :: ys = xs ∧ z = rest := by simpa [pure, Except.pure] using done
      exact List.forall_mem_cons.mpr ⟨here, gives_slotsReader input size ts _ _ _ others⟩

theorem gives_fieldReaders (input : String) : (fields : List (String × Ty)) →
    ∀ f ∈ fieldReaders input fields, Gives Sound f.2
  | [] => by simp [fieldReaders]
  | (name, t) :: fields => by
    rw [fieldReaders]
    exact List.forall_mem_cons.mpr ⟨gives_reader input t, gives_fieldReaders input fields⟩

end

end Literal

theorem Ty.exists_read_of_parseLiteral {t : Ty} {input : String} {v : Value}
    (h : t.parseLiteral input = .ok v) :
    ∃ rest, Literal.reader input t input.toList = .ok (v, rest) := by
  obtain ⟨rest, read, -⟩ := Phrase.whole_eq_ok_iff.mp h
  exact ⟨rest, read⟩

theorem Ty.fits_of_parseLiteral {t : Ty} {input : String} {v : Value}
    (h : t.parseLiteral input = .ok v) : Value.Fits t v := by
  obtain ⟨rest, read⟩ := exists_read_of_parseLiteral h
  exact Literal.fits_of_reader read

theorem Ty.sound_of_parseLiteral {t : Ty} {input : String} {v : Value}
    (h : t.parseLiteral input = .ok v) : v.Sound := by
  obtain ⟨rest, read⟩ := exists_read_of_parseLiteral h
  exact Literal.gives_reader input t _ _ _ read

namespace Aggregate

variable {a : Aggregate} {d : AggregateDecl} {registry : Registry} {functions : List Function}
  {literal : String} {v : Value}

theorem withInitialCondition_of_fits (fits : Value.Fits a.stateType v) :
    a.withInitialCondition v = .ok { a with initialCondition := some v } :=
  withInitialCondition_eq_ok_iff.mpr ⟨v, fits, rfl⟩

theorem ofDecl_of_literal (given : d.initialCondition = some literal)
    (built : ofDecl { d with initialCondition := none } registry functions = .ok a)
    (read : a.stateType.parseLiteral literal = .ok v) :
    ofDecl d registry functions = .ok { a with initialCondition := some v } := by
  obtain ⟨name, arguments, state, stateFunction, takes, finalFunction, -⟩ :=
    ofDecl_eq_ok_iff.mp built
  refine ofDecl_eq_ok_iff.mpr
    ⟨name, arguments, state, stateFunction, takes, finalFunction, ?_⟩
  rw [given]
  exact .some ⟨v, read, Ty.fits_of_parseLiteral read⟩

end Aggregate

/-- Every literal that can be read denotes a value that its type takes and stores as it is. Each part
of the value, at any depth, is of the type that stands at its place and in the form in which that
type stores it: nothing in a list, a set or a map is null, and sets and maps are in increasing
order. An aggregate that can be built without its initial condition can therefore be built with it,
once the literal has been read. -/
theorem Ty.parseLiteral_wellTyped :
    (∀ (t : Ty) input v, t.parseLiteral input = .ok v →
      t.accepts v ∧ t.coerce v = .ok v ∧ Value.HasType t v ∧ v.WellTyped ∧ v.Sound) ∧
    ∀ (d : AggregateDecl) registry functions literal (a : Aggregate) v,
      d.initialCondition = some literal →
      Aggregate.ofDecl { d with initialCondition := none } registry functions = .ok a →
      a.stateType.parseLiteral literal = .ok v →
      a.withInitialCondition v = .ok { a with initialCondition := some v } ∧
        Aggregate.ofDecl d registry functions = .ok { a with initialCondition := some v } := by
  constructor
  · intro t input v read
    have fits := fits_of_parseLiteral read
    have sound := sound_of_parseLiteral read
    have accepted := accepts_of_coerce fits
    exact ⟨accepted, fits, sound.wellTyped.hasType accepted, sound.wellTyped, sound⟩
  · intro d registry functions literal a v given built read
    have fits := fits_of_parseLiteral read
    exact ⟨Aggregate.withInitialCondition_of_fits fits,
      Aggregate.ofDecl_of_literal given built read⟩

theorem Ty.parseLiteral_wellTyped_state :
    let seen : Ty := .set (.scalar .int)
    let state : Ty := .tuple [seen, .scalar .counter]
    let add : Function := ⟨"add", [("state", state), ("x", .scalar .int)], state, none, none, false⟩
    let d : AggregateDecl :=
      ⟨"all", ["int"], "add", "tuple<set<int>, counter>", none, some "( {7, +03,7}, NULL )"⟩
    let v : Value := .tuple [seen, .scalar .counter]
      [.set (.scalar .int)
        [.fixed .int ⟨3, by decide, by decide⟩, .fixed .int ⟨7, by decide, by decide⟩], .null]
    let a : Aggregate := ⟨"all", [.scalar .int], state, add, none, none⟩
    state.parseLiteral "( {7, +03,7}, NULL )" = .ok v ∧ Value.HasType state v ∧ v.WellTyped ∧
      v.Sound ∧ Aggregate.ofDecl d .empty [add] = .ok { a with initialCondition := some v } := by
  intro seen state add d v a
  have read : state.parseLiteral "( {7, +03,7}, NULL )" = .ok v := by
    let text := "( {7, +03,7}, NULL )".toList
    let three : Value := .fixed .int ⟨3, by decide, by decide⟩
    let seven : Value := .fixed .int ⟨7, by decide, by decide⟩
    let inner : Value := .set (.scalar .int) [three, seven]
    have items (input : String) :
        Reader.list (Literal.reader input (.scalar .int)) '}' (text.drop 3) =
          .ok ([seven, three, seven], text.drop 12) :=
      Reader.items_more rfl rfl rfl (Reader.items_more rfl rfl rfl (Reader.items_last rfl rfl))
    have first (input : String) :
        Literal.reader input seen (text.drop 1) = .ok (inner, text.drop 12) := by
      have present : Literal.null? (text.drop 1) = none := rfl
      have opened : Reader.expect '{' (text.drop 1) = .ok (text.drop 3) := rfl
      simp only [seen, Literal.reader, present, opened, items, bind, Except.bind]
      rfl
    have slots (input : String) :
        Literal.slotsReader input 2 [seen, .scalar .counter] (text.drop 1) =
          .ok ([inner, .null], []) := by
      rw [Literal.slotsReader, first]
      rfl
    have outer (input : String) : Literal.reader input state text = .ok (v, []) := by
      have present : Literal.null? text = none := rfl
      have opened : Reader.expect '(' text = .ok (text.drop 1) := rfl
      have more : Reader.eat? ')' (text.drop 1) = none := rfl
      simp only [state, Literal.reader, present, opened, more, List.length_cons,
        List.length_nil, slots, bind, Except.bind]
      rfl
    unfold parseLiteral Reader.whole
    rw [outer]
    rfl
  have built : Aggregate.ofDecl { d with initialCondition := none } .empty [add] = .ok a := by
    subst a d add state seen
    rfl
  obtain ⟨-, -, typed, wellTyped, sound⟩ := parseLiteral_wellTyped.1 state _ v read
  have started := (parseLiteral_wellTyped.2 d .empty [add] _ a v rfl built read).2
  exact ⟨read, typed, wellTyped, sound, started⟩

end Cql
