import Cql.Proofs.Ty.RoundTrip

/-!
Types are told apart by their texts. In front of anything that can follow a type, the text of a type
is that of no other type, and its end is where it is, so that lists of types are told apart, too.
Nothing is read for this: keyspaces may have names that a reader takes for a keyword.
-/

namespace Cql

section Lists

variable {α : Type} {stop : Char → Bool} {text : α → List Char} {P : α → Prop} {x : α}
  {xs ys : List α} {gap rest rest' : List Char}

/-- In front of anything that starts with a character of `stop`, the text of `x` is that of none
else with the property, and what follows it begins in one place only. -/
def Determines (stop : Char → Bool) (text : α → List Char) (P : α → Prop) (x : α) : Prop :=
  ∀ y, P y → ∀ rest rest' : List Char, (∀ c ∈ rest.head?, stop c) → (∀ c ∈ rest'.head?, stop c) →
    text x ++ rest = text y ++ rest' → x = y ∧ rest = rest'

theorem append_intercalate (separator text : List Char) (texts : List (List Char)) :
    separator ++ separator.intercalate (text :: texts) =
      ((text :: texts).map (separator ++ ·)).flatten := by
  induction texts generalizing text with
  | nil => simp
  | cons other texts ih =>
    rw [List.intercalate_cons_cons, List.append_assoc, ih other, ← List.append_assoc]
    rfl

theorem not_mem_intercalate {c : Char} {separator : List Char} {texts : List (List Char)}
    (between : c ∉ separator) (within : ∀ text ∈ texts, c ∉ text) :
    c ∉ separator.intercalate texts := by
  induction texts with
  | nil => exact List.not_mem_nil
  | cons text texts ih =>
    obtain ⟨first, others⟩ := List.forall_mem_cons.mp within
    cases texts with
    | nil => rwa [List.intercalate_singleton]
    | cons other texts =>
      rw [List.intercalate_cons_cons]
      simp [first, between, ih others]

theorem determines_tail (comma : stop ',') (determines : ∀ x ∈ xs, Determines stop text P x)
    (all : ∀ y ∈ ys, P y) (ends : ∀ c ∈ rest.head?, stop c ∧ c ≠ ',')
    (ends' : ∀ c ∈ rest'.head?, stop c ∧ c ≠ ',')
    (same : (xs.map fun x => ',' :: gap ++ text x).flatten ++ rest =
      (ys.map fun y => ',' :: gap ++ text y).flatten ++ rest') :
    xs = ys ∧ rest = rest' := by
  induction xs generalizing ys with
  | nil =>
    cases ys with
    | nil => exact ⟨rfl, same⟩
    | cons y ys =>
      obtain rfl : rest = ',' :: _ := same
      exact absurd rfl (ends ',' rfl).2
  | cons x xs ih =>
    cases ys with
    | nil =>
      obtain rfl : ',' :: _ = rest' := same
      exact absurd rfl (ends' _ rfl).2
    | cons y ys =>
      have follows (zs : List α) {rest : List Char} (ends : ∀ c ∈ rest.head?, stop c ∧ c ≠ ',') :
          ∀ c ∈ ((zs.map fun z => ',' :: gap ++ text z).flatten ++ rest).head?, stop c := by
        cases zs with
        | nil => exact fun c h => (ends c h).1
        | cons z zs => simpa using comma
      have split : text x ++ ((xs.map fun x => ',' :: gap ++ text x).flatten ++ rest) =
          text y ++ ((ys.map fun y => ',' :: gap ++ text y).flatten ++ rest') := by
        simpa using same
      obtain ⟨rfl, others⟩ := determines x List.mem_cons_self y (all y List.mem_cons_self) _ _
        (follows xs ends) (follows ys ends') split
      obtain ⟨rfl, after⟩ := ih (fun z hz => determines z (List.mem_cons_of_mem x hz))
        (fun z hz => all z (List.mem_cons_of_mem x hz)) others
      exact ⟨rfl, after⟩

theorem determines_intercalate (comma : stop ',')
    (determines : ∀ x ∈ xs, Determines stop text P x) (all : ∀ y ∈ ys, P y)
    (opens : ∀ x, x ∈ xs ∨ x ∈ ys → ∃ c ∈ (text x).head?, stop c = false)
    (ends : ∀ c ∈ rest.head?, stop c ∧ c ≠ ',') (ends' : ∀ c ∈ rest'.head?, stop c ∧ c ≠ ',')
    (same : (',' :: gap).intercalate (xs.map text) ++ rest =
      (',' :: gap).intercalate (ys.map text) ++ rest') :
    xs = ys ∧ rest = rest' := by
  have front (x : α) (xs : List α) (rest : List Char) :
      (',' :: gap) ++ ((',' :: gap).intercalate ((x :: xs).map text) ++ rest) =
        ((x :: xs).map fun x => ',' :: gap ++ text x).flatten ++ rest := by
    rw [List.map_cons, ← List.append_assoc, append_intercalate, ← List.map_cons, List.map_map]
    rfl
  have opening {x : α} (xs : List α) (rest : List Char)
      (opens : ∃ c ∈ (text x).head?, stop c = false) :
      ∃ c ∈ ((',' :: gap).intercalate ((x :: xs).map text) ++ rest).head?, stop c = false := by
    obtain ⟨c, first, other⟩ := opens
    obtain ⟨s, text⟩ := Reader.exists_intercalate_eq (',' :: gap) (text x) (xs.map text)
    refine ⟨c, ?_, other⟩
    rw [List.map_cons, text, List.append_assoc]
    exact List.mem_head?_append_of_mem_head? first
  cases xs with
  | nil =>
    cases ys with
    | nil => exact ⟨rfl, same⟩
    | cons y ys =>
      obtain ⟨c, first, other⟩ := opening ys rest' (opens y (.inr List.mem_cons_self))
      obtain rfl : rest = _ := same
      rw [(ends c first).1] at other
      contradiction
  | cons x xs =>
    cases ys with
    | nil =>
      obtain ⟨c, first, other⟩ := opening xs rest (opens x (.inl List.mem_cons_self))
      obtain rfl : _ = rest' := same
      rw [(ends' c first).1] at other
      contradiction
    | cons y ys =>
      have joined : ((x :: xs).map fun x => ',' :: gap ++ text x).flatten ++ rest =
          ((y :: ys).map fun y => ',' :: gap ++ text y).flatten ++ rest' := by
        rw [← front, ← front, same]
      exact determines_tail comma determines all ends ends' joined

end Lists

namespace Ty

/-- The keyword of a composite type with what stands between its brackets: types, those of fields
with the names in front of them. -/
def parts? : Ty → Option (String × List (Option String × Ty))
  | .scalar _ => none
  | .list element => some ("list", [(none, element)])
  | .set element => some ("set", [(none, element)])
  | .map key value => some ("map", [(none, key), (none, value)])
  | .tuple elements => some ("tuple", elements.map (none, ·))
  | .user none fields => some ("userType", fields.map fun f => (some f.1, f.2))
  | .user (some _) _ => none

def ofParts? : String → List (Option String × Ty) → Option Ty
  | "list", [(_, element)] => some (.list element)
  | "set", [(_, element)] => some (.set element)
  | "map", [(_, key), (_, value)] => some (.map key value)
  | "tuple", parts => some (.tuple (parts.map (·.2)))
  | "userType", parts => some (.user none (parts.map fun p => (p.1.getD "", p.2)))
  | _, _ => none

def partText : Option String × Ty → List Char
  | (none, t) => t.text.toList
  | (some name, t) => name.toList ++ ':' :: t.text.toList

section Parts

variable {t : Ty} {word : String} {inner : List (Option String × Ty)}

theorem ofParts?_of_parts? (h : t.parts? = some (word, inner)) : ofParts? word inner = some t := by
  unfold parts? at h
  split at h <;> cases h
  · rfl
  · rfl
  · rfl
  · simp [ofParts?]
  · simp [ofParts?, Function.comp_def]

theorem toList_of_parts? (h : t.parts? = some (word, inner)) :
    t.text.toList =
      word.toList ++ '<' :: ([',', ' '].intercalate (inner.map partText) ++ ['>']) := by
  unfold parts? at h
  split at h <;> cases h
  · simpa [partText] using toList_list _
  · simpa [partText] using toList_set _
  · simpa [partText] using toList_map _ _
  · rw [toList_tuple, List.map_map]
    rfl
  · rw [toList_user, List.map_map]
    rfl

end Parts

theorem eq_of_bare_append {first second : String} (bare : BareName first)
    (bare' : BareName second) {s s' : List Char} (ends : ∀ c ∈ s.head?, isNameChar c = false)
    (ends' : ∀ c ∈ s'.head?, isNameChar c = false)
    (same : first.toList ++ s = second.toList ++ s') : first = second ∧ s = s' := by
  have read := nameReader_of_bare bare ends
  rw [same, nameReader_of_bare bare' ends'] at read
  obtain ⟨names, rests⟩ := Prod.mk.inj (Except.ok.inj read)
  exact ⟨names.symm, rests.symm⟩

end Ty

namespace Registry

open Ty (BareName endsType isNameChar partText)

variable {r : Registry} {t u : Ty} {word : String} {inner : List (Option String × Ty)}

/-- Every type in the registry has a keyspace and a name that may stand without quotes, and is found
under them. -/
def Named (r : Registry) : Prop :=
  ∀ e ∈ r.types, ∃ keyspace name, e.2.label = some ⟨some keyspace, name⟩ ∧
    BareName keyspace ∧ BareName name ∧ r.resolve (some keyspace) name = some e.2.ty

inductive Part (r : Registry) : Bool → Option String × Ty → Prop
  | element {t : Ty} (writes : Writes r t) : Part r false (none, t)
  | field {name : String} {t : Ty} (bare : BareName name) (writes : Writes r t) :
      Part r true (some name, t)

theorem named_registerAll (new : r.types = []) {registrations : List Registration}
    (names : ∀ c ∈ registrations, BareName c.keyspace ∧ BareName c.name) :
    Named (r.registerAll registrations) := by
  intro e he
  obtain ⟨c, hc, label, found⟩ := exists_registration new he
  obtain ⟨keyspace, name⟩ := names c hc
  exact ⟨c.keyspace, c.name, label, keyspace, name, found⟩

theorem parts?_registered (named : Named r) {e : String × UserType} (held : e ∈ r.types) :
    e.2.ty.parts? = none := by
  obtain ⟨keyspace, name, label, -⟩ := named e held
  simp [UserType.ty, label, Ty.parts?]

theorem parts_of_writes (named : Named r) (writes : Writes r t)
    (h : t.parts? = some (word, inner)) :
    BareName word ∧ ∀ p ∈ inner, Part r (word == "userType") p := by
  cases writes with
  | scalar s => contradiction
  | list writes =>
    cases h
    exact ⟨by decide, List.forall_mem_singleton.mpr (.element writes)⟩
  | set writes =>
    cases h
    exact ⟨by decide, List.forall_mem_singleton.mpr (.element writes)⟩
  | map key value =>
    cases h
    exact ⟨by decide, by simpa using ⟨.element key, .element value⟩⟩
  | tuple elements =>
    cases h
    exact ⟨by decide, List.forall_mem_map.mpr fun t ht => .element (elements t ht)⟩
  | anonymous names types =>
    cases h
    exact ⟨by decide, List.forall_mem_map.mpr fun f hf => .field (names f hf) (types f hf)⟩
  | registered held =>
    rw [parts?_registered named held] at h
    contradiction

/-- What holds of each type of whose parts it holds, holds of all types that can be written. -/
theorem parts_induction (named : Named r) {motive : Ty → Prop}
    (step : ∀ t, Writes r t →
      (∀ word inner, t.parts? = some (word, inner) → ∀ p ∈ inner, motive p.2) → motive t)
    (writes : Writes r t) : motive t := by
  induction writes with
  | scalar s => exact step _ (.scalar s) nofun
  | list writes ih =>
    refine step _ (.list writes) fun _ _ h => ?_
    cases h
    simpa using ih
  | set writes ih =>
    refine step _ (.set writes) fun _ _ h => ?_
    cases h
    simpa using ih
  | map key value ihKey ihValue =>
    refine step _ (.map key value) fun _ _ h => ?_
    cases h
    simpa using ⟨ihKey, ihValue⟩
  | tuple elements ih =>
    refine step _ (.tuple elements) fun _ _ h => ?_
    cases h
    exact List.forall_mem_map.mpr ih
  | anonymous names types ih =>
    refine step _ (.anonymous names types) fun _ _ h => ?_
    cases h
    exact List.forall_mem_map.mpr ih
  | registered held =>
    refine step _ (.registered held) fun _ _ h => ?_
    rw [parts?_registered named held] at h
    contradiction

inductive Opens (r : Registry) : Ty → String → List Char → Prop
  | scalar (s : Scalar) : Opens r (.scalar s) s.name []
  | registered {t : Ty} {keyspace name : String} (bare : BareName name)
      (held : r.resolve (some keyspace) name = some t) : Opens r t keyspace ('.' :: name.toList)
  | composite {t : Ty} {word : String} {inner : List (Option String × Ty)}
      (parts : t.parts? = some (word, inner)) :
      Opens r t word ('<' :: ([',', ' '].intercalate (inner.map partText) ++ ['>']))

theorem exists_opens (named : Named r) (writes : Writes r t) :
    ∃ word rest, Opens r t word rest ∧ BareName word ∧ t.text.toList = word.toList ++ rest := by
  have composite {word : String} {inner : List (Option String × Ty)}
      (parts : t.parts? = some (word, inner)) :
      ∃ word rest, Opens r t word rest ∧ BareName word ∧ t.text.toList = word.toList ++ rest :=
    ⟨word, _, .composite parts, (parts_of_writes named writes parts).1, Ty.toList_of_parts? parts⟩
  cases writes with
  | scalar s => exact ⟨s.name, [], .scalar s, Ty.bareName_scalar s, (List.append_nil _).symm⟩
  | registered held =>
    obtain ⟨keyspace, name, label, outer, inner, found⟩ := named _ held
    refine ⟨keyspace, '.' :: name.toList, .registered inner found, outer, ?_⟩
    rw [text_of_label label, Ty.toList_label]
  | list _ => exact composite rfl
  | set _ => exact composite rfl
  | map _ _ => exact composite rfl
  | tuple _ => exact composite rfl
  | anonymous _ _ => exact composite rfl

theorem not_isNameChar_of_opens {rest s : List Char} (opens : Opens r t word rest)
    (ends : ∀ c ∈ s.head?, endsType c) : ∀ c ∈ (rest ++ s).head?, isNameChar c = false := by
  cases opens with
  | scalar _ => exact fun c h => Ty.not_isNameChar_of_endsType (ends c h)
  | registered _ _ => simp; rfl
  | composite _ => simp; rfl

/-- Types are the same where their texts are, up to what ends them, unless they have the same
keyword: then it is for their parts to tell. -/
theorem eq_or_parts_of_text (named : Named r) (writes : Writes r t) (writes' : Writes r u)
    {s s' : List Char} (ends : ∀ c ∈ s.head?, endsType c) (ends' : ∀ c ∈ s'.head?, endsType c)
    (same : t.text.toList ++ s = u.text.toList ++ s') :
    (t = u ∧ s = s') ∨ ∃ word inner inner', t.parts? = some (word, inner) ∧
      u.parts? = some (word, inner') ∧
        [',', ' '].intercalate (inner.map partText) ++ '>' :: s =
          [',', ' '].intercalate (inner'.map partText) ++ '>' :: s' := by
  obtain ⟨word, rest, opens, bare, text⟩ := exists_opens named writes
  obtain ⟨word', rest', opens', bare', text'⟩ := exists_opens named writes'
  rw [text, text', List.append_assoc, List.append_assoc] at same
  obtain ⟨words, rests⟩ := Ty.eq_of_bare_append bare bare' (not_isNameChar_of_opens opens ends)
    (not_isNameChar_of_opens opens' ends') same
  clear text text' same
  cases opens with
  | scalar k =>
    cases opens' with
    | scalar k' =>
      have found := Scalar.ofName?_name k
      rw [words, Scalar.ofName?_name k'] at found
      exact .inl ⟨congrArg Ty.scalar (Option.some.inj found).symm, rests⟩
    | registered _ _ =>
      obtain rfl : s = '.' :: _ := rests
      exact absurd (ends '.' rfl) (by decide)
    | composite _ =>
      obtain rfl : s = '<' :: _ := rests
      exact absurd (ends '<' rfl) (by decide)
  | registered bare held =>
    cases opens' with
    | scalar _ =>
      obtain rfl : '.' :: _ = s' := rests
      exact absurd (ends' _ rfl) (by decide)
    | registered bare' held' =>
      obtain ⟨rfl, after⟩ := Ty.eq_of_bare_append bare bare'
        (fun c h => Ty.not_isNameChar_of_endsType (ends c h))
        (fun c h => Ty.not_isNameChar_of_endsType (ends' c h)) (List.cons.inj rests).2
      subst words
      exact .inl ⟨Option.some.inj (held.symm.trans held'), after⟩
    | composite _ => simp at rests
  | composite parts =>
    cases opens' with
    | scalar _ =>
      obtain rfl : '<' :: _ = s' := rests
      exact absurd (ends' _ rfl) (by decide)
    | registered _ _ => simp at rests
    | composite parts' =>
      subst words
      exact .inr ⟨_, _, _, parts, parts', by simpa using rests⟩

theorem exists_head_of_part (named : Named r) {field : Bool} {p : Option String × Ty}
    (part : Part r field p) : ∃ c ∈ (partText p).head?, endsType c = false := by
  have head {name : String} (bare : BareName name) (s : List Char) :
      ∃ c ∈ (name.toList ++ s).head?, endsType c = false := by
    obtain ⟨c, first, letter⟩ := Ty.exists_head_of_bare bare s
    refine ⟨c, first, Bool.eq_false_iff.mpr fun ends => ?_⟩
    rw [Ty.not_isNameChar_of_endsType ends] at letter
    contradiction
  cases part with
  | element writes =>
    obtain ⟨word, rest, -, bare, text⟩ := exists_opens named writes
    rw [partText, text]
    exact head bare rest
  | field bare _ => exact head bare _

theorem determines_part {field : Bool} {p : Option String × Ty} (part : Part r field p)
    (determines : Determines endsType (·.text.toList) (Writes r) p.2) :
    Determines endsType partText (Part r field) p := by
  intro q other s s' ends ends' same
  cases part with
  | element writes =>
    cases other with
    | element writes' =>
      obtain ⟨rfl, after⟩ := determines _ writes' s s' ends ends' same
      exact ⟨rfl, after⟩
  | field bare writes =>
    cases other with
    | field bare' writes' =>
      simp only [partText, List.append_assoc, List.cons_append] at same
      obtain ⟨rfl, rests⟩ := Ty.eq_of_bare_append bare bare' (by simp; rfl) (by simp; rfl) same
      obtain ⟨rfl, after⟩ := determines _ writes' s s' ends ends' (List.cons.inj rests).2
      exact ⟨rfl, after⟩

/-- The text of a type in front of what may follow it is that of no other type. -/
theorem determines_text (named : Named r) (writes : Writes r t) :
    Determines endsType (·.text.toList) (Writes r) t := by
  refine parts_induction named ?_ writes
  intro t writes ih u writes' s s' ends ends' same
  rcases eq_or_parts_of_text named writes writes' ends ends' same with
    done | ⟨word, inner, inner', parts, parts', texts⟩
  · exact done
  · have own := (parts_of_writes named writes parts).2
    have others := (parts_of_writes named writes' parts').2
    have opens (p) (hp : p ∈ inner ∨ p ∈ inner') : ∃ c ∈ (partText p).head?, endsType c = false :=
      hp.elim (fun hp => exists_head_of_part named (own p hp))
        fun hp => exists_head_of_part named (others p hp)
    have comma : endsType ',' := rfl
    obtain ⟨rfl, after⟩ := determines_intercalate comma
      (fun p hp => determines_part (own p hp) (ih word inner parts p hp)) others opens
      (by simp; decide) (by simp; decide) texts
    have made := Ty.ofParts?_of_parts? parts
    rw [Ty.ofParts?_of_parts? parts'] at made
    exact ⟨(Option.some.inj made).symm, (List.cons.inj after).2⟩

section Parenthesis

theorem parenthesis_not_mem_of_bare {name : String} (bare : BareName name) :
    '(' ∉ name.toList :=
  fun member => absurd (bare.2 _ member) (by decide)

theorem parenthesis_not_mem_part {field : Bool} {p : Option String × Ty} (part : Part r field p)
    (outside : '(' ∉ p.2.text.toList) : '(' ∉ partText p := by
  cases part with
  | element _ => exact outside
  | field bare _ => simpa [partText] using ⟨parenthesis_not_mem_of_bare bare, outside⟩

theorem parenthesis_not_mem_text (named : Named r) (writes : Writes r t) :
    '(' ∉ t.text.toList := by
  refine parts_induction named (motive := fun t => '(' ∉ t.text.toList) ?_ writes
  intro t writes ih
  obtain ⟨word, rest, opens, bare, text⟩ := exists_opens named writes
  rw [text, List.mem_append, not_or]
  refine ⟨parenthesis_not_mem_of_bare bare, ?_⟩
  cases opens with
  | scalar s => exact List.not_mem_nil
  | registered bare _ => simpa using parenthesis_not_mem_of_bare bare
  | @composite _ _ inner parts =>
    have inside : '(' ∉ [',', ' '].intercalate (inner.map partText) := by
      refine not_mem_intercalate (by decide) (List.forall_mem_map.mpr fun p hp => ?_)
      exact parenthesis_not_mem_part ((parts_of_writes named writes parts).2 p hp)
        (ih _ _ parts p hp)
    simpa using inside

end Parenthesis

end Registry

end Cql
