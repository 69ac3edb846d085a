import Cql.Proofs.Ty.Resolve
import Cql.Proofs.Ty.RoundTrip

/-!
Which types that have been read are read back from their texts. The text of a type has the names of
fields in it as they are, without quotes around them; so it is read as the same type exactly if
every such name may stand without quotes. That it is not read as the same type in any other way
follows from counting double quotes: any text of a type has at least two more of them for every name
that needs them than the name itself has.
-/

namespace Cql

def quotes (s : List Char) : Nat := s.count '"'

section Quotes

@[simp] theorem quotes_nil : quotes [] = 0 := rfl

@[simp] theorem quotes_append (s t : List Char) : quotes (s ++ t) = quotes s + quotes t :=
  List.count_append

@[simp] theorem quotes_cons_self (s : List Char) : quotes ('"' :: s) = quotes s + 1 :=
  List.count_cons_self

@[simp] theorem quotes_cons {c : Char} (other : c ≠ '"') (s : List Char) :
    quotes (c :: s) = quotes s := List.count_cons_of_ne other

theorem quotes_intercalate {α : Type} (text : α → List Char) (xs : List α) :
    quotes ([',', ' '].intercalate (xs.map text)) = (xs.map fun x => quotes (text x)).sum := by
  induction xs with
  | nil => rfl
  | cons x xs ih =>
    cases xs with
    | nil => simp
    | cons y xs =>
      rw [List.map_cons, List.map_cons, List.intercalate_cons_cons, ← List.map_cons,
        quotes_append, quotes_append, ih]
      simp

end Quotes

def Reader.Spends {α : Type} (cost : α → Nat) (item : Reader α) : Prop :=
  ∀ {s : List Char} {x : α} {rest : List Char},
    item s = .ok (x, rest) → cost x + quotes rest ≤ quotes s

namespace Reader

variable {α : Type} {cost : α → Nat} {item : Reader α} {c closing : Char} {s rest : List Char}

theorem quotes_le_of_eat? (h : eat? c s = some rest) : quotes rest ≤ quotes s := by
  obtain ⟨mark, rfl, -⟩ := Phrase.exists_mark_of_eat? h
  simp

theorem quotes_le_of_expect (h : expect c s = .ok rest) : quotes rest ≤ quotes s :=
  quotes_le_of_eat? (Phrase.expect_eq_ok_iff.mp h)

theorem spends_items (spends : Spends cost item) (fuel : Nat) :
    Spends (fun xs => (xs.map cost).sum) (items item closing fuel) := by
  induction fuel with
  | zero =>
    intro s xs rest h
    contradiction
  | succ fuel ih =>
    intro s xs rest h
    rw [items] at h
    obtain ⟨⟨x, t⟩, first, left⟩ := bind_eq_ok_iff.mp h
    have here := spends first
    cases closed : eat? closing t with
    | some u =>
      obtain ⟨rfl, rfl⟩ : [x] = xs ∧ u = rest := by
        simpa [closed, pure, Except.pure] using left
      have behind := quotes_le_of_eat? closed
      simp only [List.map_singleton, List.sum_singleton]
      omega
    | none =>
      simp only [closed] at left
      obtain ⟨u, comma, left⟩ := bind_eq_ok_iff.mp left
      obtain ⟨⟨ys, w⟩, others, done⟩ := bind_eq_ok_iff.mp left
      obtain ⟨rfl, rfl⟩ : x :: ys = xs ∧ w = rest := by simpa [pure, Except.pure] using done
      have behind := quotes_le_of_expect comma
      have all : (ys.map cost).sum + quotes w ≤ quotes u := ih others
      simp only [List.map_cons, List.sum_cons]
      omega

theorem spends_list (spends : Spends cost item) :
    Spends (fun xs => (xs.map cost).sum) (list item closing) := by
  intro s xs rest h
  unfold list at h
  cases closed : eat? closing s with
  | some t =>
    obtain ⟨rfl, rfl⟩ : [] = xs ∧ t = rest := by simpa [closed] using h
    simpa using quotes_le_of_eat? closed
  | none =>
    simp only [closed] at h
    exact spends_items spends _ h

end Reader

namespace Ty

mutual

/-- The names of fields of user types in a type, at any depth, from left to right. -/
def fieldNames : Ty → List String
  | .scalar _ => []
  | .list element => element.fieldNames
  | .set element => element.fieldNames
  | .map key value => key.fieldNames ++ value.fieldNames
  | .tuple elements => elementFieldNames elements
  | .user _ fields => ownFieldNames fields

def elementFieldNames : List Ty → List String
  | [] => []
  | t :: ts => t.fieldNames ++ elementFieldNames ts

def ownFieldNames : List (String × Ty) → List String
  | [] => []
  | (name, t) :: fields => name :: (t.fieldNames ++ ownFieldNames fields)

end

section FieldNames

theorem fieldNames_tuple (ts : List Ty) : (tuple ts).fieldNames = ts.flatMap fieldNames := by
  rw [fieldNames]
  induction ts with
  | nil => rfl
  | cons t ts ih => rw [elementFieldNames, ih, List.flatMap_cons]

theorem fieldNames_user (label : Option Label) (fields : List (String × Ty)) :
    (user label fields).fieldNames = fields.flatMap fun f => f.1 :: f.2.fieldNames := by
  rw [fieldNames]
  induction fields with
  | nil => rfl
  | cons f fields ih => rw [ownFieldNames, ih, List.flatMap_cons, List.cons_append]

def total (cost : String → Nat) (t : Ty) : Nat := (t.fieldNames.map cost).sum

variable (cost : String → Nat)

theorem sum_flatMap {α : Type} (names : α → List String) (xs : List α) :
    ((xs.flatMap names).map cost).sum = (xs.map fun x => ((names x).map cost).sum).sum := by
  induction xs with
  | nil => rfl
  | cons x xs ih => simp [ih]

theorem total_map (k v : Ty) : total cost (map k v) = total cost k + total cost v := by
  simp [total, fieldNames]

theorem total_tuple (ts : List Ty) : total cost (tuple ts) = (ts.map (total cost)).sum := by
  rw [total, fieldNames_tuple, sum_flatMap]
  rfl

theorem total_user (label : Option Label) (fields : List (String × Ty)) :
    total cost (user label fields) =
      (fields.map fun f => cost f.1 + total cost f.2).sum := by
  rw [total, fieldNames_user, sum_flatMap]
  rfl

end FieldNames

section Words

variable {name : String} {s rest : List Char}

def quotesNeeded (name : String) : Nat :=
  if BareName name then 0 else 2 * quotes name.toList + 2

theorem quotes_doubled (s : List Char) : quotes (doubled '"' s) = 2 * quotes s := by
  induction s with
  | nil => rfl
  | cons c s ih =>
    by_cases quote : c = '"'
    · subst quote
      simp only [doubled, if_true, quotes_cons_self, ih]
      omega
    · simp only [doubled, if_neg quote, quotes_cons quote, ih]

theorem quotes_of_bare (bare : BareName name) : quotes name.toList = 0 := by
  apply List.count_eq_zero.mpr
  intro member
  exact absurd (bare.2 '"' member) (by decide)

theorem quotesNeeded_le_of_word (word : Word s name) : quotesNeeded name ≤ quotes s := by
  unfold quotesNeeded
  split
  · exact Nat.zero_le _
  · rename_i unfit
    rcases word with ⟨_, _, bare, _⟩ | ⟨blanks, _, rfl⟩
    · exact absurd bare unfit
    · simp only [quotes_append, quotes_cons_self, quotes_nil, quotes_doubled]
      omega

theorem spends_nameReader : Reader.Spends quotesNeeded nameReader := by
  intro s name rest h
  obtain ⟨w, rfl, word⟩ := sound_nameReader h
  have enough := quotesNeeded_le_of_word word
  rw [quotes_append]
  omega

theorem spends_fieldReader {α : Type} {cost : α → Nat} {inner : Reader α}
    (spends : Reader.Spends cost inner) :
    Reader.Spends (fun f : String × α => quotesNeeded f.1 + cost f.2) (fieldReader inner) := by
  intro s f rest h
  unfold fieldReader at h
  obtain ⟨⟨name, r⟩, first, left⟩ := bind_eq_ok_iff.mp h
  obtain ⟨u, second, left⟩ := bind_eq_ok_iff.mp left
  obtain ⟨⟨x, v⟩, third, done⟩ := bind_eq_ok_iff.mp left
  obtain ⟨rfl, rfl⟩ : (name, x) = f ∧ v = rest := by simpa [pure, Except.pure] using done
  have word := spends_nameReader first
  have colon := Reader.quotes_le_of_expect second
  have value := spends third
  dsimp only
  omega

end Words

inductive Nameless : Ty → Prop
  | scalar (s : Scalar) : Nameless (.scalar s)
  | list {t : Ty} (element : Nameless t) : Nameless (.list t)
  | set {t : Ty} (element : Nameless t) : Nameless (.set t)
  | map {k v : Ty} (key : Nameless k) (value : Nameless v) : Nameless (.map k v)
  | tuple {ts : List Ty} (elements : ∀ t ∈ ts, Nameless t) : Nameless (.tuple ts)
  | anonymous {fields : List (String × Ty)} (types : ∀ f ∈ fields, Nameless f.2) :
      Nameless (.user none fields)

section Readers

variable {depth : Nat} {t : Ty} {s rest : List Char}

/-- Without a resolver there are no names of types. -/
theorem nameless_reader (depth : Nat) :
    Reader.Within Nameless (reader noUserTypes depth) (reader noUserTypes depth) := by
  induction depth with
  | zero =>
    intro s t rest h
    contradiction
  | succ depth ih =>
    intro s t rest h
    refine ⟨h, ?_⟩
    obtain ⟨name, r, -, follows⟩ := exists_follows h
    cases follows with
    | @around b wrap _ _ _ _ _ known one _ element _ =>
      have inner := (ih element).2
      cases b with
      | list => exact Option.some.inj one ▸ .list inner
      | set => exact Option.some.inj one ▸ .set inner
      | frozen => exact Option.some.inj one ▸ inner
      | map => contradiction
      | tuple => contradiction
    | map _ _ key _ value _ => exact .map (ih key).2 (ih value).2
    | tuple _ _ elements => exact .tuple (Reader.within_list ih elements).2
    | anonymous _ _ _ parts =>
      exact .anonymous (Reader.within_list (within_fieldReader ih) parts).2
    | scalar _ _ _ => exact .scalar _
    | named _ _ _ found => contradiction
    | qualified _ _ _ _ found => contradiction

theorem spends_reader (depth : Nat) :
    Reader.Spends (total quotesNeeded) (reader noUserTypes depth) := by
  induction depth with
  | zero =>
    intro s t rest h
    contradiction
  | succ depth ih =>
    intro s t rest h
    obtain ⟨name, r, word, follows⟩ := exists_follows h
    have before := spends_nameReader word
    cases follows with
    | @around b wrap _ _ _ _ t known one opening element closing =>
      have same : total quotesNeeded (wrap t) = total quotesNeeded t := by
        cases b <;> cases one <;> rfl
      have opened := Reader.quotes_le_of_expect opening
      have inner := ih element
      have closed := Reader.quotes_le_of_expect closing
      omega
    | map _ opening key comma value closing =>
      have opened := Reader.quotes_le_of_expect opening
      have first := ih key
      have between := Reader.quotes_le_of_expect comma
      have second := ih value
      have closed := Reader.quotes_le_of_expect closing
      rw [total_map]
      omega
    | tuple _ opening elements =>
      have opened := Reader.quotes_le_of_expect opening
      have all := Reader.spends_list ih elements
      rw [total_tuple]
      dsimp only at all
      omega
    | anonymous _ _ opening parts =>
      have opened := Reader.quotes_le_of_eat? opening
      have all := Reader.spends_list (spends_fieldReader ih) parts
      rw [total_user]
      dsimp only at all
      omega
    | @scalar _ k _ _ _ =>
      have free : total quotesNeeded (.scalar k) = 0 := rfl
      omega
    | named _ _ _ found => contradiction
    | qualified _ _ _ _ found => contradiction

theorem nameless_of_parse {input : String} (h : parse input = .ok t) : Nameless t := by
  obtain ⟨rest, read, -⟩ := Phrase.whole_eq_ok_iff.mp h
  exact (nameless_reader _ read).2

theorem quotesNeeded_le_of_parse {input : String} (h : parse input = .ok t) :
    total quotesNeeded t ≤ quotes input.toList := by
  obtain ⟨rest, read, -⟩ := Phrase.whole_eq_ok_iff.mp h
  have spent := spends_reader _ read
  omega

end Readers

section Texts

variable {t : Ty}

/-- The double quotes in the text of a type are those in the names of fields. -/
theorem quotes_text (nameless : Nameless t) :
    quotes t.text.toList = total (fun name => quotes name.toList) t := by
  induction nameless with
  | scalar s => cases s <;> rfl
  | list _ ih => simpa [toList_list, total, fieldNames] using ih
  | set _ ih => simpa [toList_set, total, fieldNames] using ih
  | map _ _ ihKey ihValue => simp [toList_map, total_map, ihKey, ihValue]
  | @tuple ts _ ih =>
    have parts : (ts.map fun t => quotes t.text.toList) = ts.map (total _) :=
      List.map_congr_left ih
    rw [toList_tuple, total_tuple, ← parts, ← quotes_intercalate]
    simp
  | @anonymous fields _ ih =>
    have parts : (fields.map fun f => quotes (f.1.toList ++ ':' :: f.2.text.toList)) =
        fields.map fun f => quotes f.1.toList + total _ f.2 :=
      List.map_congr_left fun f hf => by rw [← ih f hf]; simp
    rw [toList_user, total_user, ← parts, ← quotes_intercalate]
    simp

theorem quotes_le_quotesNeeded (name : String) : quotes name.toList ≤ quotesNeeded name := by
  unfold quotesNeeded
  split
  · rename_i bare
    exact (quotes_of_bare bare).le
  · omega

theorem quotes_lt_quotesNeeded {name : String} (unfit : ¬ BareName name) :
    quotes name.toList < quotesNeeded name := by
  rw [quotesNeeded, if_neg unfit]
  omega

/-- A text cannot do without the double quotes of a name that needs them. -/
theorem bare_of_total_le
    (enough : total quotesNeeded t ≤ total (fun name => quotes name.toList) t) :
    ∀ name ∈ t.fieldNames, BareName name := by
  intro name member
  by_contra unfit
  have fewer : total (fun name => quotes name.toList) t < total quotesNeeded t :=
    List.sum_lt_sum _ _ (fun other _ => quotes_le_quotesNeeded other)
      ⟨name, member, quotes_lt_quotesNeeded unfit⟩
  omega

theorem writes_of_bare (r : Registry) (nameless : Nameless t)
    (bare : ∀ name ∈ t.fieldNames, BareName name) : r.Writes t := by
  induction nameless with
  | scalar s => exact .scalar s
  | list _ ih => exact .list (ih bare)
  | set _ ih => exact .set (ih bare)
  | map _ _ ihKey ihValue =>
    obtain ⟨keys, values⟩ := List.forall_mem_append.mp bare
    exact .map (ihKey keys) (ihValue values)
  | tuple _ ih =>
    rw [fieldNames_tuple] at bare
    exact .tuple fun t ht => ih t ht fun name member =>
      bare name (List.mem_flatMap_of_mem ht member)
  | anonymous _ ih =>
    rw [fieldNames_user] at bare
    have own {f name} (hf : f ∈ _) (member : name ∈ f.1 :: f.2.fieldNames) : BareName name :=
      bare name (List.mem_flatMap_of_mem hf member)
    exact .anonymous (fun f hf => own hf List.mem_cons_self)
      fun f hf => ih f hf fun name member => own hf (List.mem_cons_of_mem _ member)

end Texts

theorem resolve_empty : Registry.empty.resolve = noUserTypes := by
  funext keyspace name
  cases keyspace <;> rfl

theorem parse_text_of_writes {t : Ty} (writes : Registry.empty.Writes t) :
    parse t.text = .ok t := by
  have legible : Registry.empty.Legible := fun e he => absurd he List.not_mem_nil
  have reads : Reader.Reads endsType (fun s => reader noUserTypes (s.length + 1) s)
      t.text.toList t := by
    intro rest ends
    have enough : t.text.toList.length ≤ (t.text.toList ++ rest).length := by
      rw [List.length_append]
      exact Nat.le_add_right _ _
    rw [← resolve_empty]
    exact Registry.reads_text legible writes enough rest ends
  unfold parse parseWith
  exact Reader.whole_of_reads .typeText reads

/-- A type that has been read from a text is read back from its own text exactly if the name of
every field in it, at any depth, may stand without quotes. -/
theorem parse_text_iff (input : String) (t : Ty) (parsed : parse input = .ok t) :
    parse t.text = .ok t ↔ ∀ name ∈ t.fieldNames, BareName name := by
  have nameless := nameless_of_parse parsed
  constructor
  · intro again
    have enough := quotesNeeded_le_of_parse again
    rw [quotes_text nameless] at enough
    exact bare_of_total_le enough
  · intro bare
    exact parse_text_of_writes (writes_of_bare .empty nameless bare)

theorem parse_text_iff_quoted :
    let plain : Ty := .user none [("a", .list (.scalar .int)), ("b_1", .tuple [])]
    let spaced : Ty := .set (.user none [("a", plain), ("b c", .scalar .text)])
    parse "USERTYPE < \"a\" : frozen<list<int>>, \"b_1\":tuple<> >" = .ok plain ∧
      parse plain.text = .ok plain ∧
      parse "set<userType<a:userType<a:list<int>,b_1:tuple<>>,\"b c\":text>>" = .ok spaced ∧
      parse spaced.text ≠ .ok spaced := by
  intro plain spaced
  have first : parse "USERTYPE < \"a\" : frozen<list<int>>, \"b_1\":tuple<> >" = .ok plain := by
    rfl
  have second :
      parse "set<userType<a:userType<a:list<int>,b_1:tuple<>>,\"b c\":text>>" = .ok spaced := by
    rfl
  refine ⟨first, (parse_text_iff _ plain first).mpr (by decide), second, ?_⟩
  rw [ne_eq, parse_text_iff _ spaced second]
  decide

/-- With a blank in the name of a field, or none at all, the text of a type is no type; with marks
in it, the text may be another type. -/
theorem parse_text_not_inverse :
    let spaced : Ty := .user none [("a b", .scalar .int)]
    let empty : Ty := .user none [("", .scalar .int)]
    let marked : Ty := .user none [("a:int, b", .scalar .text)]
    parse "userType<\"a b\":int>" = .ok spaced ∧
      parse spaced.text = .error (.unexpectedChar .typeText 'b' 11 "userType<a b:int>") ∧
      parse "userType<\"\":int>" = .ok empty ∧
      parse empty.text = .error (.unexpectedChar .typeText ':' 9 "userType<:int>") ∧
      parse "userType<\"a:int, b\":text>" = .ok marked ∧
      parse marked.text = .ok (.user none [("a", .scalar .int), ("b", .scalar .text)]) ∧
      ¬ ∀ input t, parse input = .ok t → parse t.text = .ok t := by
  intro spaced empty marked
  subst spaced empty marked
  refine ⟨rfl, rfl, rfl, rfl, rfl, rfl, ?_⟩
  intro inverse
  have again : Except.error _ = Except.ok _ := inverse "userType<\"a b\":int>" _ rfl
  contradiction

end Ty

end Cql
