import Cql.Proofs.Literal.Scalar
import Cql.Proofs.Value.Rebuild

namespace Cql

namespace Ty

/-- A name that is read as it stands: letters, digits and underscores of any script. -/
def PlainName (name : String) : Prop :=
  name.toList ≠ [] ∧ ∀ c ∈ name.toList, isAlphanumeric c ∨ c = '_'

instance (name : String) : Decidable (PlainName name) :=
  decidable_of_iff'
    (name.toList ≠ [] ∧ name.toList.all fun c => isAlphanumeric c || c == '_') (by simp [PlainName])

end Ty

namespace Literal

open Reader (Reads SkipsBlank)

variable {input : String}

theorem skipsBlank_reader (input : String) (t : Ty) : SkipsBlank (reader input t) := by
  intro s
  have null : null? (' ' :: s) = null? s := rfl
  have token : Token.reader (' ' :: s) = Token.reader s := rfl
  have expect (c : Char) : Reader.expect c (' ' :: s) = Reader.expect c s := rfl
  cases t <;> simp only [reader, null, token, expect]

theorem reader_of_null? {t : Ty} {s left : List Char} (null : null? s = some left) :
    reader input t s = .ok (.null, left) := by
  cases t <;> simp only [reader, null]

def Opens (s : List Char) : Prop :=
  ∃ c ∈ s.head?, isBlank c = false ∧ Token.isDelimiter c = false

theorem opens_append {s : List Char} (opens : Opens s) (t : List Char) : Opens (s ++ t) := by
  obtain ⟨c, first, solid, plain⟩ := opens
  obtain ⟨u, rfl⟩ := List.head?_eq_some_iff.mp first
  exact ⟨c, rfl, solid, plain⟩

theorem opens_toText {t : Ty} {v : Value} (fits : Value.Fits t v) : Opens v.toText.toList := by
  cases present : v.isNull
  · obtain ⟨c, s, text, solid, plain, -⟩ :=
      Value.starts_toText present (Ty.kind_ne_type_of_accepts (Ty.accepts_of_coerce fits))
    exact ⟨c, by rw [text]; rfl, solid, plain⟩
  · obtain rfl := Value.eq_null_of_isNull present
    exact ⟨'n', rfl, rfl, rfl⟩

theorem eat?_of_opens {s : List Char} (opens : Opens s) {c : Char} (mark : Token.isDelimiter c) :
    Reader.eat? c s = none := by
  obtain ⟨d, first, solid, plain⟩ := opens
  obtain ⟨t, rfl⟩ := List.head?_eq_some_iff.mp first
  apply Reader.eat?_other solid
  rintro rfl
  rw [mark] at plain
  contradiction

theorem list_of_opens {α β : Type} {item : Reader α} {text : β → List Char} {value : β → α}
    {closing : Char} (mark : closing = ']' ∨ closing = '}') (skips : SkipsBlank item) {ys : List β}
    (opens : ∀ y ∈ ys, Opens (text y))
    (reads : ∀ y ∈ ys, Reads Token.isDelimiter item (text y) (value y)) (rest : List Char) :
    Reader.list item closing ([',', ' '].intercalate (ys.map text) ++ closing :: rest) =
      .ok (ys.map value, rest) := by
  have delimiter : Token.isDelimiter closing := by rcases mark with rfl | rfl <;> rfl
  apply Reader.list_of_reads skips rfl delimiter _ _ _ reads
  · rcases mark with rfl | rfl <;> rfl
  · rcases mark with rfl | rfl <;> decide
  · intro y hy
    obtain ⟨c, first, solid, plain⟩ := opens y hy
    refine ⟨c, first, solid, ?_⟩
    rintro rfl
    rw [delimiter] at plain
    contradiction

theorem reads_null (t : Ty) :
    Reads Token.isDelimiter (reader input t) Value.null.toText.toList .null := by
  intro rest stop
  exact reader_of_null? (null?_null stop)

theorem made_eq_ok_iff {value : Except Fault Value} {v : Value} {s rest : List Char} :
    made value s = .ok (v, rest) ↔ value = .ok v ∧ s = rest := by
  cases value <;> simp [made]

section Parts

variable {key value : Reader Value} {s t : List Char} {k v : Value}

theorem expect_colon (s : List Char) : Reader.expect ':' (':' :: s) = .ok s :=
  Reader.expect_self rfl

theorem reads_entry (readsKey : Reads Token.isDelimiter key s k)
    (readsValue : Reads Token.isDelimiter value t v) (skips : SkipsBlank value) :
    Reads Token.isDelimiter (entryReader key value) (s ++ ':' :: ' ' :: t) [k, v] := by
  intro rest stop
  have first := readsKey (':' :: ' ' :: (t ++ rest)) (by simp [Token.isDelimiter])
  have second := readsValue rest stop
  rw [← skips] at second
  rw [List.append_assoc, List.cons_append, List.cons_append]
  unfold entryReader
  simp only [first, bind, Except.bind, expect_colon, second]
  rfl

theorem skipsBlank_entryReader (skips : SkipsBlank key) : SkipsBlank (entryReader key value) := by
  intro s
  unfold entryReader
  rw [skips s]

theorem nameReader_of_plain {name : String} (plain : Ty.PlainName name) {rest : List Char}
    (stop : ∀ c ∈ rest.head?, Token.isDelimiter c) :
    nameReader (name.toList ++ rest) = .ok (name, rest) := by
  obtain ⟨nonempty, parts⟩ := plain
  obtain ⟨c, t, text⟩ := List.exists_cons_of_ne_nil nonempty
  have solid : isBlank c = false := by
    rcases parts c (by simp [text]) with h | rfl
    · exact isBlank_of_isAlphanumeric h
    · rfl
  have unquoted : c ≠ '"' := by
    rintro rfl
    rcases parts '"' (by simp [text]) with h | h
    · exact absurd h (by decide)
    · contradiction
  have within : ∀ c ∈ name.toList, (isAlphanumeric c || c == '_') = true := by
    simpa using parts
  have ends : ∀ c ∈ rest.head?, (isAlphanumeric c || c == '_') = false := by
    intro c h
    rcases Token.isDelimiter_iff.mp (stop c h) with rfl | rfl | rfl | rfl | rfl <;> decide
  have run := takeWhile_run within ends
  have left := dropWhile_run within ends
  unfold nameReader
  rw [text, List.cons_append, trimStart_cons solid]
  split
  · rename_i same
    exact absurd (List.cons.inj same).1 unquoted
  · rw [← List.cons_append, ← text]
    simp [run, left, nonempty]

theorem opens_of_plain {name : String} (plain : Ty.PlainName name) : Opens name.toList := by
  obtain ⟨nonempty, parts⟩ := plain
  obtain ⟨c, t, text⟩ := List.exists_cons_of_ne_nil nonempty
  refine ⟨c, by rw [text]; rfl, ?_⟩
  rcases parts c (by simp [text]) with h | rfl
  · exact ⟨isBlank_of_isAlphanumeric h, Token.isDelimiter_of_isAlphanumeric h⟩
  · exact ⟨rfl, rfl⟩

theorem skipsBlank_fieldReader (fields : List (String × Reader Value)) :
    SkipsBlank (fieldReader fields) := by
  intro s
  have name : nameReader (' ' :: s) = nameReader s := rfl
  unfold fieldReader
  rw [name]

theorem reads_field {fields : List (String × Reader Value)} {name : String}
    (plain : Ty.PlainName name) (found : fields.lookup name = some value)
    (readsValue : Reads Token.isDelimiter value t v) (skips : SkipsBlank value) :
    Reads Token.isDelimiter (fieldReader fields) (name.toList ++ ':' :: ' ' :: t)
      [.text name, v] := by
  intro rest stop
  have first : nameReader (name.toList ++ ':' :: ' ' :: (t ++ rest)) = .ok (name, _) :=
    nameReader_of_plain plain (by simp [Token.isDelimiter])
  have second := readsValue rest stop
  rw [← skips] at second
  rw [List.append_assoc, List.cons_append, List.cons_append]
  unfold fieldReader
  simp only [first, bind, Except.bind, found, expect_colon, second]
  rfl

end Parts

section Composites

variable {body rest : List Char} {xs : List Value} {v : Value}

theorem open_of_bracket {c : Char} (bracket : c = '[' ∨ c = '{' ∨ c = '(') (body : List Char) :
    null? (c :: body) = none ∧ Reader.expect c (c :: body) = .ok body := by
  have marks {c : Char} (solid : isBlank c = false) (plain : Token.isDelimiter c = false)
      (letter : c.toLower ≠ 'n') : null? (c :: body) = none := by
    have starts := Value.starts_cons body solid plain letter
    simpa using null?_of_starts starts []
  rcases bracket with rfl | rfl | rfl
  · exact ⟨marks rfl rfl (by decide), Reader.expect_self rfl⟩
  · exact ⟨marks rfl rfl (by decide), Reader.expect_self rfl⟩
  · exact ⟨marks rfl rfl (by decide), Reader.expect_self rfl⟩

theorem reader_list {u : Ty} (items : Reader.list (reader input u) ']' body = .ok (xs, rest))
    (value : (Ty.list u).create xs = .ok v) :
    reader input (.list u) ('[' :: body) = .ok (v, rest) := by
  obtain ⟨null, opened⟩ := open_of_bracket (.inl rfl) body
  simp only [reader, null, opened, items, bind, Except.bind, value, made]

theorem reader_set {u : Ty} (items : Reader.list (reader input u) '}' body = .ok (xs, rest))
    (value : (Ty.set u).create xs = .ok v) :
    reader input (.set u) ('{' :: body) = .ok (v, rest) := by
  obtain ⟨null, opened⟩ := open_of_bracket (.inr (.inl rfl)) body
  simp only [reader, null, opened, items, bind, Except.bind, value, made]

theorem reader_map {k u : Ty} {entries : List (List Value)}
    (items : Reader.list (entryReader (reader input k) (reader input u)) '}' body =
      .ok (entries, rest))
    (value : (Ty.map k u).create entries.flatten = .ok v) :
    reader input (.map k u) ('{' :: body) = .ok (v, rest) := by
  obtain ⟨null, opened⟩ := open_of_bracket (.inr (.inl rfl)) body
  simp only [reader, null, opened, items, bind, Except.bind, value, made]

theorem reader_user {label : Option Label} {fields : List (String × Ty)}
    {slots : List (List Value)}
    (items : Reader.list (fieldReader (fieldReaders input fields)) '}' body = .ok (slots, rest))
    (value : (Ty.user label fields).create slots.flatten = .ok v) :
    reader input (.user label fields) ('{' :: body) = .ok (v, rest) := by
  obtain ⟨null, opened⟩ := open_of_bracket (.inr (.inl rfl)) body
  simp only [reader, null, opened, items, bind, Except.bind, value, made]

theorem reader_tuple {ts : List Ty}
    (slots : Reader.eat? ')' body = some rest ∧ xs = [] ∨
      Reader.eat? ')' body = none ∧ slotsReader input ts.length ts body = .ok (xs, rest))
    (value : (Ty.tuple ts).create xs = .ok v) :
    reader input (.tuple ts) ('(' :: body) = .ok (v, rest) := by
  obtain ⟨null, opened⟩ := open_of_bracket (.inr (.inr rfl)) body
  rcases slots with ⟨closed, rfl⟩ | ⟨more, slots⟩
  · simp only [reader, null, opened, closed, bind, Except.bind, value, made]
  · simp only [reader, null, opened, more, slots, bind, Except.bind, value, made]

end Composites

section Slots

variable {size : Nat} {t : Ty} {ts : List Ty} {x : Value} {xs : List Value} {s u v w : List Char}

theorem slotsReader_last (first : reader input t s = .ok (x, u))
    (closed : Reader.eat? ')' u = some v) :
    slotsReader input size (t :: ts) s = .ok ([x], v) := by
  simp only [slotsReader, first, bind, Except.bind, closed, pure, Except.pure]

theorem slotsReader_more (first : reader input t s = .ok (x, u)) (more : Reader.eat? ')' u = none)
    (comma : Reader.expect ',' u = .ok v)
    (others : slotsReader input size ts v = .ok (xs, w)) :
    slotsReader input size (t :: ts) s = .ok (x :: xs, w) := by
  simp only [slotsReader, first, bind, Except.bind, more, comma, others, pure, Except.pure]

theorem skipsBlank_slotsReader : SkipsBlank (slotsReader input size (t :: ts)) := by
  intro s
  simp only [slotsReader, skipsBlank_reader input t s]

theorem slotsReader_of_reads (size : Nat)
    (reads : List.Forall₂ (fun t x =>
      Reads Token.isDelimiter (reader input t) x.toText.toList x.canonical) (t :: ts) (x :: xs))
    (rest : List Char) :
    slotsReader input size (t :: ts)
      ([',', ' '].intercalate ((x :: xs).map fun x => x.toText.toList) ++ ')' :: rest) =
      .ok ((x :: xs).map Value.canonical, rest) := by
  induction xs generalizing t ts x with
  | nil =>
    obtain ⟨first, none⟩ := List.forall₂_cons.mp reads
    rw [List.map_singleton, List.intercalate_singleton]
    exact slotsReader_last (first _ (by simp [Token.isDelimiter])) (Reader.eat?_self rfl)
  | cons y ys ih =>
    obtain ⟨first, others⟩ := List.forall₂_cons.mp reads
    obtain ⟨u, us, -, -, rfl⟩ := List.forall₂_cons_right_iff.mp others
    have read := ih others
    rw [← skipsBlank_slotsReader] at read
    have joined :
        [',', ' '].intercalate ((x :: y :: ys).map fun x => x.toText.toList) ++ ')' :: rest =
          x.toText.toList ++ ',' :: ' ' ::
            ([',', ' '].intercalate ((y :: ys).map fun x => x.toText.toList) ++ ')' :: rest) := by
      simp
    rw [joined]
    exact slotsReader_more (first _ (by simp [Token.isDelimiter]))
      (Reader.eat?_other rfl (by decide)) (Reader.expect_self rfl) read

end Slots

theorem lookup_fieldReaders (fields : List (String × Ty)) (name : String) :
    (fieldReaders input fields).lookup name = (fields.lookup name).map (reader input) := by
  induction fields with
  | nil => rfl
  | cons f fields ih =>
    obtain ⟨n, t⟩ := f
    rw [fieldReaders, List.lookup_cons, List.lookup_cons, ih]
    cases name == n <;> rfl

theorem lookup_of_nodup {fields : List (String × Ty)} (distinct : (fields.map (·.1)).Nodup)
    {f : String × Ty} (h : f ∈ fields) : fields.lookup f.1 = some f.2 := by
  obtain ⟨index, here⟩ := List.getElem?_of_mem h
  rw [Container.lookup_eq_bind, Value.findIdx?_of_nodup distinct here]
  simp [here]

end Literal

end Cql
