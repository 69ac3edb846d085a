import Cql.Proofs.Literal.Reader

/-!
Literals are read back: the text of a value that a type stores denotes, as a literal of the type,
the same value but for the patterns of NaN in it. Fields are read back if their names need no
quotes and no user type has two fields of one name.
-/

namespace Cql

namespace Ty

/-- In every user type within the type, fields have plain names that differ. -/
inductive PlainFields : Ty → Prop
  | scalar (s : Scalar) : PlainFields (.scalar s)
  | list {t : Ty} (element : PlainFields t) : PlainFields (.list t)
  | set {t : Ty} (element : PlainFields t) : PlainFields (.set t)
  | map {k v : Ty} (key : PlainFields k) (value : PlainFields v) : PlainFields (.map k v)
  | tuple {ts : List Ty} (elements : ∀ t ∈ ts, PlainFields t) : PlainFields (.tuple ts)
  | user {label : Option Label} {fields : List (String × Ty)}
      (distinct : (fields.map (·.1)).Nodup) (names : ∀ f ∈ fields, PlainName f.1)
      (types : ∀ f ∈ fields, PlainFields f.2) : PlainFields (.user label fields)

end Ty

namespace Literal

open Reader (Reads)

variable {input : String}

def ReadsBack (input : String) (t : Ty) (v : Value) : Prop :=
  Reads Token.isDelimiter (reader input t) v.toText.toList v.canonical

theorem readsBack_of_present {t : Ty} {v : Value}
    (h : v.isNull = false → ReadsBack input t v) : ReadsBack input t v := by
  cases present : v.isNull
  · exact h present
  · obtain rfl := Value.eq_null_of_isNull present
    exact reads_null t

section ReadBack

variable {t k u : Ty} {xs : List Value}

theorem readsBack_scalar {s : Scalar} {v : Value} (present : v.isNull = false)
    (fits : Value.Fits (.scalar s) v) : ReadsBack input (.scalar s) v := by
  intro rest stop
  obtain ⟨token, reads, value⟩ := Token.denotes_toText present fits
  have other := Ty.kind_ne_type_of_accepts (Ty.accepts_of_coerce fits)
  have notNull := null?_of_starts (Value.starts_toText present other) rest
  simp only [reader, notNull, reads rest stop, bind, Except.bind, value, made]

theorem readsBack_list (stored : ∀ x ∈ xs, Value.Stored t x)
    (parts : ∀ x ∈ xs, ReadsBack input t x) : ReadsBack input (.list t) (.list t xs) := by
  intro rest stop
  have items := list_of_opens (.inl rfl) (skipsBlank_reader input t)
    (fun x hx => opens_toText (Value.fits_of_stored (stored x hx))) parts rest
  have value : (Ty.list t).create (xs.map Value.canonical) =
      .ok (.list t (xs.map Value.canonical)) := by
    apply Value.create_list
    simpa using fun x hx => Value.stored_canonical (stored x hx)
  rw [Value.toList_list, Value.canonical, Value.canonicalAll_eq_map]
  simpa using reader_list items value

theorem readsBack_set (stored : ∀ x ∈ xs, Value.Stored t x)
    (increasing : Sorted.Increasing Value.cmp xs) (parts : ∀ x ∈ xs, ReadsBack input t x) :
    ReadsBack input (.set t) (.set t xs) := by
  intro rest stop
  have items := list_of_opens (.inr rfl) (skipsBlank_reader input t)
    (fun x hx => opens_toText (Value.fits_of_stored (stored x hx))) parts rest
  have value : (Ty.set t).create (xs.map Value.canonical) =
      .ok (.set t (xs.map Value.canonical)) := by
    apply Value.create_set _ (Value.increasing_canonical increasing)
    simpa using fun x hx => Value.stored_canonical (stored x hx)
  rw [Value.toList_set, Value.canonical, Value.canonicalAll_eq_map]
  simpa using reader_set items value

theorem readsBack_map {es : List (Value × Value)}
    (stored : ∀ e ∈ es, Value.Stored k e.1 ∧ Value.Stored u e.2)
    (increasing : Sorted.Increasing Value.cmp (es.map (·.1)))
    (keys : ∀ e ∈ es, ReadsBack input k e.1) (values : ∀ e ∈ es, ReadsBack input u e.2) :
    ReadsBack input (.map k u) (.map k u es) := by
  intro rest stop
  have items : Reader.list (entryReader (reader input k) (reader input u)) '}'
      ([',', ' '].intercalate
        (es.map fun e => e.1.toText.toList ++ ':' :: ' ' :: e.2.toText.toList) ++ '}' :: rest) =
      .ok (es.map fun e => [e.1.canonical, e.2.canonical], rest) :=
    list_of_opens (.inr rfl) (skipsBlank_entryReader (skipsBlank_reader input k))
      (fun e he => opens_append (opens_toText (Value.fits_of_stored (stored e he).1)) _)
      (fun e he => reads_entry (keys e he) (values e he) (skipsBlank_reader input u)) rest
  have value : (Ty.map k u).create (es.map fun e => [e.1.canonical, e.2.canonical]).flatten =
      .ok (.map k u (es.map fun e => (e.1.canonical, e.2.canonical))) := by
    have stored' : ∀ e ∈ es.map fun e => (e.1.canonical, e.2.canonical),
        Value.Stored k e.1 ∧ Value.Stored u e.2 := by
      intro f hf
      obtain ⟨e, he, rfl⟩ := List.mem_map.mp hf
      exact ⟨Value.stored_canonical (stored e he).1, Value.stored_canonical (stored e he).2⟩
    have increasing' := Value.increasing_canonical increasing
    have entries := Value.create_map stored' (by simpa [Function.comp_def] using increasing')
    simpa [Function.comp_def] using entries
  rw [Value.toList_map, Value.canonical, Value.canonicalEntries_eq_map]
  simpa using reader_map items value

theorem readsBack_tuple {ts : List Ty} (fits : List.Forall₂ Value.Fits ts xs)
    (parts : List.Forall₂ (ReadsBack input) ts xs) :
    ReadsBack input (.tuple ts) (.tuple ts xs) := by
  intro rest stop
  have value := Value.create_tuple (Value.fits_canonical fits)
  rw [Value.toList_tuple, Value.canonical, Value.canonicalAll_eq_map]
  cases parts with
  | nil =>
    exact reader_tuple (.inl ⟨Reader.eat?_self rfl, rfl⟩) value
  | @cons t x ts xs first others =>
    have slots := slotsReader_of_reads (t :: ts).length (.cons first others) rest
    have opens := opens_toText (List.forall₂_cons.mp fits).1
    obtain ⟨s, begun⟩ := Reader.exists_intercalate_eq [',', ' '] x.toText.toList
      (xs.map fun x => x.toText.toList)
    have more : Reader.eat? ')' ([',', ' '].intercalate
        ((x :: xs).map fun x => x.toText.toList) ++ ')' :: rest) = none := by
      rw [List.map_cons, begun, List.append_assoc]
      exact eat?_of_opens (opens_append opens _) rfl
    simpa using reader_tuple (.inr ⟨more, slots⟩) value

theorem readsBack_user {label : Option Label} {fields : List (String × Ty)}
    (distinct : (fields.map (·.1)).Nodup) (names : ∀ f ∈ fields, Ty.PlainName f.1)
    (fits : List.Forall₂ Value.Fits (fields.map (·.2)) xs)
    (parts : ∀ s ∈ fields.zip xs, ReadsBack input s.1.2 s.2) :
    ReadsBack input (.user label fields) (.user ⟨label, fields⟩ xs) := by
  intro rest stop
  have items : Reader.list (fieldReader (fieldReaders input fields)) '}'
      ([',', ' '].intercalate
        ((fields.zip xs).map fun s => s.1.1.toList ++ ':' :: ' ' :: s.2.toText.toList) ++
          '}' :: rest) =
      .ok ((fields.zip xs).map fun s => [.text s.1.1, s.2.canonical], rest) := by
    apply list_of_opens (.inr rfl) (skipsBlank_fieldReader _)
    · intro s hs
      exact opens_append (opens_of_plain (names s.1 (List.of_mem_zip hs).1)) _
    · intro s hs
      have here := (List.of_mem_zip hs).1
      have found : (fieldReaders input fields).lookup s.1.1 = some (reader input s.1.2) := by
        rw [lookup_fieldReaders, lookup_of_nodup distinct here]
        rfl
      exact reads_field (names s.1 here) found (parts s hs) (skipsBlank_reader input s.1.2)
  have value : (Ty.user label fields).create
      ((fields.zip xs).map fun s => [.text s.1.1, s.2.canonical]).flatten =
        .ok (.user ⟨label, fields⟩ (xs.map Value.canonical)) := by
    rw [← Value.create_user (Value.fits_canonical fits) distinct]
    simp [List.zip_map_right, Function.comp_def]
  rw [Value.toList_user, Value.canonical, Value.canonicalAll_eq_map]
  simpa using reader_user items value

end ReadBack

/-- What a type stores is read back from its text, whatever follows. -/
theorem readsBack_of_fits {t : Ty} (plain : t.PlainFields) {v : Value} (sound : v.Sound)
    (fits : Value.Fits t v) : ReadsBack input t v := by
  induction plain generalizing v with
  | scalar k => exact readsBack_of_present fun present => readsBack_scalar present fits
  | list _ ih =>
    apply readsBack_of_present
    intro present
    obtain ⟨xs, rfl⟩ := Ty.accepts_list present (Ty.accepts_of_coerce fits)
    cases sound with
    | atom h => contradiction
    | list stored parts =>
      exact readsBack_list stored fun x hx => ih (parts x hx) (Value.fits_of_stored (stored x hx))
  | set _ ih =>
    apply readsBack_of_present
    intro present
    obtain ⟨xs, rfl⟩ := Ty.accepts_set present (Ty.accepts_of_coerce fits)
    cases sound with
    | atom h => contradiction
    | set stored parts increasing =>
      exact readsBack_set stored increasing fun x hx =>
        ih (parts x hx) (Value.fits_of_stored (stored x hx))
  | map _ _ ihKey ihValue =>
    apply readsBack_of_present
    intro present
    obtain ⟨es, rfl⟩ := Ty.accepts_map present (Ty.accepts_of_coerce fits)
    cases sound with
    | atom h => contradiction
    | map stored keys values increasing =>
      exact readsBack_map stored increasing
        (fun e he => ihKey (keys e he) (Value.fits_of_stored (stored e he).1))
        (fun e he => ihValue (values e he) (Value.fits_of_stored (stored e he).2))
  | tuple _ ih =>
    apply readsBack_of_present
    intro present
    obtain ⟨xs, rfl⟩ := Ty.accepts_tuple present (Ty.accepts_of_coerce fits)
    cases sound with
    | atom h => contradiction
    | tuple fits parts =>
      obtain ⟨same, slots⟩ := List.forall₂_iff_zip.mp fits
      apply readsBack_tuple fits
      apply List.forall₂_iff_zip.mpr
      refine ⟨same, ?_⟩
      intro _ _ h
      obtain ⟨type, slot⟩ := List.of_mem_zip h
      exact ih _ type (parts _ slot) (slots h)
  | @user label fields distinct names _ ih =>
    apply readsBack_of_present
    intro present
    obtain ⟨xs, rfl⟩ := Ty.accepts_user present (Ty.accepts_of_coerce fits)
    cases sound with
    | atom h => contradiction
    | user fits parts =>
      apply readsBack_user distinct names fits
      intro s hs
      obtain ⟨field, slot⟩ := List.of_mem_zip hs
      have here : (s.1.2, s.2) ∈ (fields.map (·.2)).zip xs := by
        rw [List.zip_map_left]
        exact List.mem_map_of_mem hs
      exact ih s.1 field (parts s.2 slot) ((List.forall₂_iff_zip.mp fits).2 here)

end Literal

namespace Ty

variable {t : Ty} {v : Value}

/-- Literals read back what is written: the text of a value in its stored form denotes, as a
literal of its type, a value that compares equal to it. -/
theorem parseLiteral_toText (plain : t.PlainFields) (built : v.Built)
    (stored : t.coerce v = .ok v) : ∃ w, t.parseLiteral v.toText = .ok w ∧ w.cmp v = .eq := by
  refine ⟨v.canonical, ?_, ?_⟩
  · exact Reader.whole_of_reads _ (Literal.readsBack_of_fits plain built.sound stored)
  · exact (Value.cmp_eq_iff _ _).mpr (Value.canonical_canonical v)

theorem parseLiteral_toText_nested :
    let doubles : Ty := .set (.scalar .double)
    let pair : Ty := .tuple [.scalar .int, .scalar .text]
    let u : UserType := ⟨none, [("größe", doubles), ("x_1", pair)]⟩
    let v : Value := .user u
      [.set (.scalar .double) [.double .negativeZero, .double (.nan true)],
        .tuple [.scalar .int, .scalar .text] [.null, .text "it's, {null}"]]
    u.ty.coerce v = .ok v ∧ ∃ w, u.ty.parseLiteral v.toText = .ok w ∧ w.cmp v = .eq := by
  intro doubles pair u v
  have plain : u.ty.PlainFields := by
    have names : ∀ f ∈ u.fields, PlainName f.1 := by decide +kernel
    apply PlainFields.user (by decide) names
    intro f hf
    rcases List.mem_cons.mp hf with rfl | hf
    · exact .set (.scalar _)
    · obtain rfl := List.mem_singleton.mp hf
      apply PlainFields.tuple
      intro t ht
      rcases List.mem_cons.mp ht with rfl | ht
      · exact .scalar _
      · exact List.mem_singleton.mp ht ▸ .scalar _
  have zero : Value.Built (.set (.scalar .double) [.double .negativeZero]) :=
    .insert (.emptySet _) (.atom rfl)
      (rfl : Container.insert _ _ (.double .negativeZero) = .ok (true, _))
  have set : Value.Built (.set (.scalar .double) [.double .negativeZero, .double (.nan true)]) :=
    .insert zero (.atom rfl) (rfl : Container.insert _ _ (.double (.nan true)) = .ok (true, _))
  have tuple : Value.Built (.tuple [.scalar .int, .scalar .text] [.null, .text "it's, {null}"]) :=
    .setSlot (.emptyTuple _) (.atom rfl)
      (rfl : Container.setSlot _ _ 1 (.text "it's, {null}") = .ok _)
  have first : Value.Built (.user u
      [.set (.scalar .double) [.double .negativeZero, .double (.nan true)], .null]) :=
    .setField (.emptyUser u) set (rfl : Container.setField _ _ "größe" _ = .ok _)
  have built : v.Built := .setField first tuple (rfl : Container.setField _ _ "x_1" _ = .ok _)
  have stored : u.ty.coerce v = .ok v := rfl
  exact ⟨stored, parseLiteral_toText plain built stored⟩

end Ty

end Cql
