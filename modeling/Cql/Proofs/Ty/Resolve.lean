import Cql.Proofs.Ty.Grammar

namespace Cql

section Readers

variable {α β : Type} {Q : α → Prop} {item item' : Reader α} {closing : Char} {fuel : Nat}

def Reader.Within (Q : α → Prop) (item item' : Reader α) : Prop :=
  ∀ {s : List Char} {x : α} {rest : List Char},
    item s = .ok (x, rest) → item' s = .ok (x, rest) ∧ Q x

theorem Reader.within_items (within : Within Q item item') :
    Within (∀ x ∈ ·, Q x) (items item closing fuel) (items item' closing fuel) := by
  induction fuel with
  | zero =>
    intro s xs rest h
    contradiction
  | succ fuel ih =>
    intro s xs rest h
    rw [items] at h
    obtain ⟨⟨x, t⟩, first, left⟩ := bind_eq_ok_iff.mp h
    obtain ⟨first', here⟩ := within first
    cases closed : eat? closing t with
    | some u =>
      obtain ⟨rfl, rfl⟩ : [x] = xs ∧ u = rest := by
        simpa [closed, pure, Except.pure] using left
      exact ⟨items_last first' closed, by simpa using here⟩
    | none =>
      simp only [closed] at left
      obtain ⟨u, comma, left⟩ := bind_eq_ok_iff.mp left
      obtain ⟨⟨ys, w⟩, others, done⟩ := bind_eq_ok_iff.mp left
      obtain ⟨rfl, rfl⟩ : x :: ys = xs ∧ w = rest := by simpa [pure, Except.pure] using done
      obtain ⟨others', all⟩ := ih others
      exact ⟨items_more first' closed comma others', List.forall_mem_cons.mpr ⟨here, all⟩⟩

theorem Reader.within_list (within : Within Q item item') :
    Within (∀ x ∈ ·, Q x) (list item closing) (list item' closing) := by
  intro s xs rest h
  unfold list at *
  cases closed : eat? closing s with
  | some t =>
    obtain ⟨rfl, rfl⟩ : [] = xs ∧ t = rest := by simpa [closed] using h
    simp
  | none =>
    simp only [closed] at h ⊢
    exact within_items within h

theorem Ty.within_fieldReader (within : Reader.Within Q item item') :
    Reader.Within (fun f : String × α => Q f.2) (fieldReader item) (fieldReader item') := by
  intro s f rest h
  unfold fieldReader at h
  obtain ⟨⟨name, r⟩, first, left⟩ := bind_eq_ok_iff.mp h
  obtain ⟨u, second, left⟩ := bind_eq_ok_iff.mp left
  obtain ⟨⟨x, v⟩, third, done⟩ := bind_eq_ok_iff.mp left
  obtain ⟨rfl, rfl⟩ : (name, x) = f ∧ v = rest := by simpa [pure, Except.pure] using done
  obtain ⟨third', here⟩ := within third
  simp only [fieldReader, first, second, third', bind, Except.bind, pure, Except.pure, here,
    and_self]

end Readers

namespace Ty

/-- The user types that occur in a type, at any depth: the type itself, if it is one, and those in
its components and its fields. -/
inductive Occurs (u : UserType) : Ty → Prop
  | self : Occurs u (.user u.label u.fields)
  | list {t : Ty} (inner : Occurs u t) : Occurs u (.list t)
  | set {t : Ty} (inner : Occurs u t) : Occurs u (.set t)
  | key {k v : Ty} (inner : Occurs u k) : Occurs u (.map k v)
  | value {k v : Ty} (inner : Occurs u v) : Occurs u (.map k v)
  | element {ts : List Ty} {t : Ty} (member : t ∈ ts) (inner : Occurs u t) : Occurs u (.tuple ts)
  | field {label : Option Label} {fields : List (String × Ty)} {f : String × Ty}
      (member : f ∈ fields) (inner : Occurs u f.2) : Occurs u (.user label fields)

def Names (P : UserType → Prop) (t : Ty) : Prop :=
  ∀ u : UserType, Occurs u t → u.label.isSome → P u

variable {P : UserType → Prop} {t : Ty}

section Names

theorem Names.imp {R : UserType → Prop} (names : Names P t) (sub : ∀ u, P u → R u) : Names R t :=
  fun u occurs named => sub u (names u occurs named)

theorem names_scalar (P : UserType → Prop) (s : Scalar) : Names P (.scalar s) := nofun

theorem names_list (names : Names P t) : Names P (.list t) := by
  rintro u (_ | inner)
  exact names u ‹_›

theorem names_set (names : Names P t) : Names P (.set t) := by
  rintro u (_ | inner)
  exact names u ‹_›

theorem names_map {k v : Ty} (key : Names P k) (value : Names P v) : Names P (.map k v) := by
  intro u occurs
  cases occurs with
  | key inner => exact key u inner
  | value inner => exact value u inner

theorem names_tuple {ts : List Ty} (elements : ∀ t ∈ ts, Names P t) : Names P (.tuple ts) := by
  intro u occurs
  cases occurs with
  | element member inner => exact elements _ member u inner

theorem names_user {label : Option Label} {fields : List (String × Ty)}
    (own : label.isSome → P ⟨label, fields⟩) (parts : ∀ f ∈ fields, Names P f.2) :
    Names P (.user label fields) := by
  intro u occurs
  cases occurs with
  | self => exact own
  | field member inner => exact parts _ member u inner

end Names

section Readers

variable {resolve resolve' : Resolver}

/-- All that is read is read with a resolver that gives the same types and perhaps others, and has
only names in it that the types given by the resolver have. -/
theorem within_reader
    (given : ∀ keyspace name t, resolve keyspace name = some t →
      resolve' keyspace name = some t ∧ Names P t) (depth : Nat) :
    Reader.Within (Names P) (reader resolve depth) (reader resolve' depth) := by
  induction depth with
  | zero =>
    intro s t rest h
    contradiction
  | succ depth ih =>
    intro s t rest h
    obtain ⟨name, r, word, follows⟩ := exists_follows h
    suffices Follows resolve' depth name r t rest ∧ Names P t from
      ⟨reader_of_follows word this.1, this.2⟩
    cases follows with
    | @around b wrap _ _ _ _ _ known one opening element closing =>
      obtain ⟨element', names⟩ := ih element
      refine ⟨.around known one opening element' closing, ?_⟩
      cases b with
      | list => exact Option.some.inj one ▸ names_list names
      | set => exact Option.some.inj one ▸ names_set names
      | frozen => exact Option.some.inj one ▸ names
      | map => contradiction
      | tuple => contradiction
    | map known opening key comma value closing =>
      obtain ⟨key', first⟩ := ih key
      obtain ⟨value', second⟩ := ih value
      exact ⟨.map known opening key' comma value' closing, names_map first second⟩
    | tuple known opening elements =>
      obtain ⟨elements', all⟩ := Reader.within_list ih elements
      exact ⟨.tuple known opening elements', names_tuple all⟩
    | anonymous unknown same opening parts =>
      obtain ⟨parts', all⟩ := Reader.within_list (within_fieldReader ih) parts
      exact ⟨.anonymous unknown same opening parts', names_user nofun all⟩
    | scalar unknown known closed => exact ⟨.scalar unknown known closed, names_scalar P _⟩
    | named free closed alone found =>
      obtain ⟨found', names⟩ := given _ _ _ found
      exact ⟨.named free closed alone found', names⟩
    | qualified free closed point second found =>
      obtain ⟨found', names⟩ := given _ _ _ found
      exact ⟨.qualified free closed point second found', names⟩

theorem parseWith_of_given
    (given : ∀ keyspace name t, resolve keyspace name = some t →
      resolve' keyspace name = some t ∧ Names P t) {input : String}
    (h : parseWith resolve input = .ok t) : parseWith resolve' input = .ok t ∧ Names P t := by
  unfold parseWith at *
  obtain ⟨rest, read, blank⟩ := Phrase.whole_eq_ok_iff.mp h
  obtain ⟨read', names⟩ := within_reader given _ read
  exact ⟨Phrase.whole_eq_ok_iff.mpr ⟨rest, read', blank⟩, names⟩

end Readers

end Ty

end Cql
