import Cql.Proofs.Container
import Cql.Proofs.Sorted

namespace Cql

namespace Value

def isComposite : Value → Bool
  | .list _ _ | .set _ _ | .map _ _ _ | .tuple _ _ | .user _ _ => true
  | _ => false

/-- The values that calls of the library give, with any arguments that are such values. -/
inductive Built : Value → Prop
  | atom {v : Value} (h : v.isComposite = false) : Built v
  | emptyList (t : Ty) : Built (.list t [])
  | push {t : Ty} {xs ys : List Value} {v : Value} (list : Built (.list t xs)) (item : Built v)
      (h : Container.push t xs v = .ok ys) : Built (.list t ys)
  | emptySet (t : Ty) : Built (.set t [])
  | insert {t : Ty} {xs ys : List Value} {v : Value} {added : Bool} (set : Built (.set t xs))
      (item : Built v) (h : Container.insert t xs v = .ok (added, ys)) : Built (.set t ys)
  | emptyMap (k v : Ty) : Built (.map k v [])
  | put {k v : Ty} {es fs : List (Value × Value)} {a b : Value} {old : Option Value}
      (map : Built (.map k v es)) (key : Built a) (value : Built b)
      (h : Container.put k v es a b = .ok (old, fs)) : Built (.map k v fs)
  | emptyTuple (ts : List Ty) : Built (.tuple ts (Container.emptySlots ts.length))
  | setSlot {ts : List Ty} {xs ys : List Value} {index : Nat} {v : Value}
      (tuple : Built (.tuple ts xs)) (item : Built v)
      (h : Container.setSlot ts xs index v = .ok ys) : Built (.tuple ts ys)
  | emptyUser (u : UserType) : Built (.user u (Container.emptySlots u.fields.length))
  | setField {u : UserType} {xs ys : List Value} {name : String} {v : Value}
      (user : Built (.user u xs)) (item : Built v)
      (h : Container.setField u xs name v = .ok ys) : Built (.user u ys)
  | coerce {t : Ty} {v w : Value} (value : Built v) (h : t.coerce v = .ok w) : Built w
  | create {t : Ty} {args : List Value} {v : Value} (parts : ∀ x ∈ args, Built x)
      (h : t.create args = .ok v) : Built v

def Stored (t : Ty) (x : Value) : Prop := Container.element t x = .ok x

/-- Whether a slot of the type holds the value in just this form, which null always is. -/
def Fits (t : Ty) (x : Value) : Prop := t.coerce x = .ok x

/-- The form that all parts of a value have, at any depth. -/
inductive Sound : Value → Prop
  | atom {v : Value} (h : v.isComposite = false) : Sound v
  | list {t : Ty} {xs : List Value} (stored : ∀ x ∈ xs, Stored t x) (parts : ∀ x ∈ xs, Sound x) :
      Sound (.list t xs)
  | set {t : Ty} {xs : List Value} (stored : ∀ x ∈ xs, Stored t x) (parts : ∀ x ∈ xs, Sound x)
      (increasing : Sorted.Increasing cmp xs) : Sound (.set t xs)
  | map {k v : Ty} {es : List (Value × Value)}
      (stored : ∀ e ∈ es, Stored k e.1 ∧ Stored v e.2)
      (keys : ∀ e ∈ es, Sound e.1) (values : ∀ e ∈ es, Sound e.2)
      (increasing : Sorted.Increasing cmp (es.map (·.1))) : Sound (.map k v es)
  | tuple {ts : List Ty} {xs : List Value} (fits : List.Forall₂ Fits ts xs)
      (parts : ∀ x ∈ xs, Sound x) : Sound (.tuple ts xs)
  | user {u : UserType} {xs : List Value} (fits : List.Forall₂ Fits (u.fields.map (·.2)) xs)
      (parts : ∀ x ∈ xs, Sound x) : Sound (.user u xs)

theorem sound_of_coerce {t : Ty} {v w : Value} (sound : Sound v) (h : t.coerce v = .ok w) :
    Sound w := by
  rcases Ty.coerce_eq_self_or_fixed h with rfl | ⟨width, n, rfl⟩
  · exact sound
  · exact .atom rfl

theorem sound_of_element {t : Ty} {v w : Value} (sound : Sound v)
    (h : Container.element t v = .ok w) : Sound w :=
  sound_of_coerce sound (Container.element_eq_ok_iff.mp h).2

theorem stored_of_element {t : Ty} {v w : Value} (h : Container.element t v = .ok w) :
    Stored t w := by
  obtain ⟨present, coerced⟩ := Container.element_eq_ok_iff.mp h
  refine Container.element_eq_ok_iff.mpr ⟨?_, Ty.coerce_idem coerced⟩
  rcases Ty.coerce_eq_self_or_fixed coerced with rfl | ⟨width, n, rfl⟩
  · exact present
  · rfl

theorem fits_of_stored {t : Ty} {x : Value} (stored : Stored t x) : Fits t x :=
  (Container.element_eq_ok_iff.mp stored).2

section Operations

variable {t : Ty} {xs ys : List Value} {v : Value}

theorem sound_push (list : Sound (.list t xs)) (item : Sound v)
    (h : Container.push t xs v = .ok ys) : Sound (.list t ys) := by
  obtain ⟨w, made, rfl⟩ := Container.push_eq_ok_iff.mp h
  cases list with
  | atom h => contradiction
  | list stored parts =>
    refine .list ?_ ?_
    · intro x hx
      rcases List.mem_append.mp hx with hx | hx
      · exact stored x hx
      · exact List.mem_singleton.mp hx ▸ stored_of_element made
    · intro x hx
      rcases List.mem_append.mp hx with hx | hx
      · exact parts x hx
      · exact List.mem_singleton.mp hx ▸ sound_of_element item made

theorem sound_insert {added : Bool} (set : Sound (.set t xs)) (item : Sound v)
    (h : Container.insert t xs v = .ok (added, ys)) : Sound (.set t ys) := by
  obtain ⟨w, made, inserted⟩ := Container.insert_eq_ok_iff.mp h
  obtain rfl : (Sorted.insert cmp w xs).2 = ys := congrArg Prod.snd inserted
  cases set with
  | atom h => contradiction
  | set stored parts increasing =>
    refine .set ?_ ?_ (Sorted.increasing_insert increasing w)
    · intro x hx
      rcases Sorted.mem_of_mem_insert hx with rfl | hx
      · exact stored_of_element made
      · exact stored x hx
    · intro x hx
      rcases Sorted.mem_of_mem_insert hx with rfl | hx
      · exact sound_of_element item made
      · exact parts x hx

theorem sound_put {key value : Ty} {es fs : List (Value × Value)} {k : Value} {old : Option Value}
    (map : Sound (.map key value es)) (soundKey : Sound k) (soundValue : Sound v)
    (h : Container.put key value es k v = .ok (old, fs)) : Sound (.map key value fs) := by
  obtain ⟨l, w, madeKey, madeValue, put⟩ := Container.put_eq_ok_iff.mp h
  obtain rfl : (Sorted.put cmp l w es).2 = fs := congrArg Prod.snd put
  cases map with
  | atom h => contradiction
  | map stored keys values increasing =>
    -- a key that was there stays, under it stands the new value
    have parts : ∀ e ∈ (Sorted.put cmp l w es).2, (e.1 = l ∨ ∃ u, (e.1, u) ∈ es) ∧
        (e.2 = w ∨ ∃ m, (m, e.2) ∈ es) := by
      intro e he
      rcases Sorted.mem_of_mem_put he with he | ⟨rfl, same | ⟨-, old⟩⟩
      · exact ⟨.inr ⟨_, he⟩, .inr ⟨_, he⟩⟩
      · exact ⟨.inl same, .inl rfl⟩
      · exact ⟨.inr old, .inl rfl⟩
    refine .map ?_ ?_ ?_ (Sorted.increasing_put increasing l w)
    · intro e he
      constructor
      · rcases (parts e he).1 with same | ⟨u, old⟩
        · exact same ▸ stored_of_element madeKey
        · exact (stored (e.1, u) old).1
      · rcases (parts e he).2 with same | ⟨m, old⟩
        · exact same ▸ stored_of_element madeValue
        · exact (stored (m, e.2) old).2
    · intro e he
      rcases (parts e he).1 with same | ⟨u, old⟩
      · exact same ▸ sound_of_element soundKey madeKey
      · exact keys (e.1, u) old
    · intro e he
      rcases (parts e he).2 with same | ⟨m, old⟩
      · exact same ▸ sound_of_element soundValue madeValue
      · exact values (m, e.2) old

theorem fits_set {ts : List Ty} {index : Nat} {w : Value} (fits : List.Forall₂ Fits ts xs)
    (here : ts[index]? = some t) (new : Fits t w) : List.Forall₂ Fits ts (xs.set index w) := by
  induction fits generalizing index with
  | nil => simp at here
  | cons first rest ih =>
    cases index with
    | zero =>
      obtain rfl := Option.some.inj here
      exact .cons new rest
    | succ index => exact .cons first (ih (by simpa using here))

theorem fits_emptySlots (ts : List Ty) :
    List.Forall₂ Fits ts (Container.emptySlots ts.length) := by
  induction ts with
  | nil => exact .nil
  | cons t ts ih => exact .cons (Ty.coerce_null t) ih

theorem sound_of_mem_emptySlots {size : Nat} {x : Value} (h : x ∈ Container.emptySlots size) :
    Sound x := List.eq_of_mem_replicate h ▸ .atom rfl

theorem sound_setSlot {ts : List Ty} {index : Nat} (tuple : Sound (.tuple ts xs)) (item : Sound v)
    (h : Container.setSlot ts xs index v = .ok ys) : Sound (.tuple ts ys) := by
  obtain ⟨t, w, here, coerced, rfl⟩ := Container.setSlot_eq_ok_iff.mp h
  cases tuple with
  | atom h => contradiction
  | tuple fits parts =>
    apply Sound.tuple (fits_set fits here (Ty.coerce_idem coerced))
    intro x hx
    rcases List.mem_or_eq_of_mem_set hx with hx | rfl
    · exact parts x hx
    · exact sound_of_coerce item coerced

theorem sound_setField {u : UserType} {name : String} (user : Sound (.user u xs)) (item : Sound v)
    (h : Container.setField u xs name v = .ok ys) : Sound (.user u ys) := by
  obtain ⟨index, t, w, -, here, coerced, rfl⟩ := Container.setField_eq_ok_iff.mp h
  cases user with
  | atom h => contradiction
  | user fits parts =>
    apply Sound.user (fits_set fits here (Ty.coerce_idem coerced))
    intro x hx
    rcases List.mem_or_eq_of_mem_set hx with hx | rfl
    · exact parts x hx
    · exact sound_of_coerce item coerced

theorem sound_emptyList (t : Ty) : Sound (.list t []) := .list (by simp) (by simp)

theorem sound_emptySet (t : Ty) : Sound (.set t []) := .set (by simp) (by simp) .nil

theorem sound_emptyMap (key value : Ty) : Sound (.map key value []) :=
  .map (by simp) (by simp) (by simp) .nil

theorem sound_emptyTuple (ts : List Ty) : Sound (.tuple ts (Container.emptySlots ts.length)) :=
  .tuple (fits_emptySlots ts) fun _ => sound_of_mem_emptySlots

theorem sound_emptyUser (u : UserType) :
    Sound (.user u (Container.emptySlots u.fields.length)) := by
  refine .user ?_ fun _ => sound_of_mem_emptySlots
  simpa using fits_emptySlots (u.fields.map (·.2))

theorem mem_of_mem_pairs {α : Type} : ∀ {xs : List α} {p : α × α}, p ∈ pairs xs →
    p.1 ∈ xs ∧ p.2 ∈ xs
  | a :: b :: rest, p, h => by
    rcases List.mem_cons.mp h with rfl | h
    · simp
    · obtain ⟨first, second⟩ := mem_of_mem_pairs h
      simp [first, second]

theorem mem_or_fixed_of_create {s : Scalar} (h : s.create xs = .ok v) :
    v ∈ xs ∨ ∃ w n, v = .fixed w n := by
  unfold Scalar.create at h
  split at h
  · obtain rfl := Except.ok.inj h
    exact .inl List.mem_cons_self
  · split at h
    all_goals obtain ⟨a, -, rfl⟩ := map_eq_ok_iff.mp h
    all_goals first | exact .inr ⟨_, _, rfl⟩ | exact .inl List.mem_cons_self
  · contradiction

theorem sound_fillSlots {ts : List Ty} {args : List Value} (parts : ∀ x ∈ args, Sound x)
    {index : Nat} (tuple : Sound (.tuple ts xs))
    (h : Container.fillSlots ts index xs args = .ok ys) : Sound (.tuple ts ys) := by
  induction args generalizing index xs with
  | nil => exact Except.ok.inj h ▸ tuple
  | cons v args ih =>
    rw [Container.fillSlots] at h
    split at h
    · rename_i zs set
      exact ih (fun x hx => parts x (List.mem_cons_of_mem v hx))
        (sound_setSlot tuple (parts v List.mem_cons_self) set) h
    · contradiction

theorem sound_fillFields {u : UserType} {args : List (Value × Value)}
    (parts : ∀ e ∈ args, Sound e.2) {position : Nat} (user : Sound (.user u xs))
    (h : Container.fillFields u position xs args = .ok ys) : Sound (.user u ys) := by
  induction args generalizing position xs with
  | nil => exact Except.ok.inj h ▸ user
  | cons e args ih =>
    obtain ⟨name, v⟩ := e
    rw [Container.fillFields] at h
    split at h
    · rename_i name' text
      cases set : Container.setField u xs name' v with
      | error fault => simp [set, bind, Except.bind] at h
      | ok zs =>
        simp only [set, bind, Except.bind] at h
        exact ih (fun x hx => parts x (List.mem_cons_of_mem _ hx))
          (sound_setField user (parts _ List.mem_cons_self) set) h
    · contradiction

theorem sound_create (parts : ∀ x ∈ xs, Sound x) (h : t.create xs = .ok v) : Sound v := by
  cases t with
  | scalar s =>
    rcases mem_or_fixed_of_create h with h | ⟨w, n, rfl⟩
    · exact parts v h
    · exact .atom rfl
  | list t =>
    obtain ⟨ys, made, rfl⟩ := map_eq_ok_iff.mp h
    exact foldlM_invariant (P := fun ys => Sound (.list t ys))
      (fun x hx _ _ sound step => sound_push sound (parts x hx) step)
      (sound_emptyList t) made
  | set t =>
    obtain ⟨ys, made, rfl⟩ := map_eq_ok_iff.mp h
    refine foldlM_invariant (P := fun ys => Sound (.set t ys)) ?_ (sound_emptySet t) made
    intro x hx _ _ sound step
    obtain ⟨⟨added, zs⟩, inserted, rfl⟩ := map_eq_ok_iff.mp step
    exact sound_insert sound (parts x hx) inserted
  | map key value =>
    rw [Ty.create] at h
    split at h
    · contradiction
    · obtain ⟨es, made, rfl⟩ := map_eq_ok_iff.mp h
      refine foldlM_invariant (P := fun es => Sound (.map key value es)) ?_
        (sound_emptyMap key value) made
      intro e he _ _ sound step
      obtain ⟨⟨old, fs⟩, put, rfl⟩ := map_eq_ok_iff.mp step
      obtain ⟨first, second⟩ := mem_of_mem_pairs he
      exact sound_put sound (parts _ first) (parts _ second) put
  | tuple ts =>
    simp only [Ty.create] at h
    split at h
    · exact Except.ok.inj h ▸ sound_emptyTuple ts
    · split at h
      · contradiction
      · obtain ⟨ys, filled, rfl⟩ := map_eq_ok_iff.mp h
        exact sound_fillSlots parts (sound_emptyTuple ts) filled
  | user label fields =>
    simp only [Ty.create] at h
    split at h
    · contradiction
    · obtain ⟨ys, filled, rfl⟩ := map_eq_ok_iff.mp h
      exact sound_fillFields (fun e he => parts _ (mem_of_mem_pairs he).2)
        (sound_emptyUser ⟨label, fields⟩) filled

end Operations

theorem Built.sound {v : Value} (built : Built v) : Sound v := by
  induction built with
  | atom h => exact .atom h
  | emptyList t => exact sound_emptyList t
  | push _ _ h list item => exact sound_push list item h
  | emptySet t => exact sound_emptySet t
  | insert _ _ h set item => exact sound_insert set item h
  | emptyMap k v => exact sound_emptyMap k v
  | put _ _ _ h map key value => exact sound_put map key value h
  | emptyTuple ts => exact sound_emptyTuple ts
  | setSlot _ _ h tuple item => exact sound_setSlot tuple item h
  | emptyUser u => exact sound_emptyUser u
  | setField _ _ h user item => exact sound_setField user item h
  | coerce _ h value => exact sound_of_coerce value h
  | create _ h parts => exact sound_create parts h

end Value

end Cql
