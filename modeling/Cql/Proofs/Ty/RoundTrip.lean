import Cql.Proofs.Registry
import Cql.Proofs.Ty.Reader

namespace Cql

namespace Registry

/-- The types made up of scalars, anonymous user types with bare field names, and the user types in
the registry. -/
inductive Writes (r : Registry) : Ty → Prop
  | scalar (s : Scalar) : Writes r (.scalar s)
  | list {t : Ty} (element : Writes r t) : Writes r (.list t)
  | set {t : Ty} (element : Writes r t) : Writes r (.set t)
  | map {k v : Ty} (key : Writes r k) (value : Writes r v) : Writes r (.map k v)
  | tuple {ts : List Ty} (elements : ∀ t ∈ ts, Writes r t) : Writes r (.tuple ts)
  | anonymous {fields : List (String × Ty)} (names : ∀ f ∈ fields, Ty.BareName f.1)
      (types : ∀ f ∈ fields, Writes r f.2) : Writes r (.user none fields)
  | registered {e : String × UserType} (held : e ∈ r.types) : Writes r e.2.ty

end Registry

namespace Ty

section Texts

def endsType (c : Char) : Bool := c == ',' || c == '>'

theorem not_isNameChar_of_endsType {c : Char} (h : endsType c) : isNameChar c = false := by
  rcases (by simpa [endsType] using h : c = ',' ∨ c = '>') with rfl | rfl <;> rfl

theorem toList_list (t : Ty) :
    (list t).text.toList = "list".toList ++ '<' :: (t.text.toList ++ ['>']) := by
  simp [text]

theorem toList_set (t : Ty) :
    (set t).text.toList = "set".toList ++ '<' :: (t.text.toList ++ ['>']) := by
  simp [text]

theorem toList_map (k v : Ty) :
    (map k v).text.toList =
      "map".toList ++ '<' :: ((k.text.toList ++ ',' :: ' ' :: v.text.toList) ++ ['>']) := by
  simp [text]

theorem toList_tuple (ts : List Ty) :
    (tuple ts).text.toList = "tuple".toList ++
      '<' :: ([',', ' '].intercalate (ts.map fun t => t.text.toList) ++ ['>']) := by
  simp [text, texts_eq_map, Function.comp_def]

theorem toList_user (fields : List (String × Ty)) :
    (user none fields).text.toList = "userType".toList ++
      '<' :: ([',', ' '].intercalate (fields.map fun f => f.1.toList ++ ':' :: f.2.text.toList) ++
        ['>']) := by
  simp [text, fieldTexts_eq_map, Function.comp_def]

theorem toList_label (keyspace name : String) :
    (Label.text ⟨some keyspace, name⟩).toList = keyspace.toList ++ '.' :: name.toList := by
  simp [Label.text]

theorem exists_head_of_bare {name : String} (bare : BareName name) (s : List Char) :
    ∃ c ∈ (name.toList ++ s).head?, isNameChar c := by
  obtain ⟨c, rest, text⟩ := List.exists_cons_of_ne_nil bare.1
  refine ⟨c, by simp [text], bare.2 c ?_⟩
  rw [text]
  exact List.mem_cons_self

end Texts

section Reads

open Reader (Reads)

variable {resolve : Resolver} {depth : Nat} {t : Ty} {u v : List Char}

theorem nameReader_of_ends {name : String} (bare : BareName name) {rest : List Char}
    (ends : ∀ c ∈ rest.head?, endsType c) :
    nameReader (name.toList ++ rest) = .ok (name, rest) :=
  nameReader_of_bare bare fun c h => not_isNameChar_of_endsType (ends c h)

theorem ends_closing (rest : List Char) : ∀ c ∈ ('>' :: rest).head?, endsType c := by
  intro c h
  obtain rfl := Option.some.inj h
  rfl

theorem reads_list (element : Reads endsType (reader resolve depth) u t) :
    Reads endsType (reader resolve (depth + 1)) ("list".toList ++ '<' :: (u ++ ['>']))
      (.list t) := by
  intro rest _
  have inner := element ('>' :: rest) (ends_closing rest)
  have parts := reader_list inner
  simpa using parts

theorem reads_set (element : Reads endsType (reader resolve depth) u t) :
    Reads endsType (reader resolve (depth + 1)) ("set".toList ++ '<' :: (u ++ ['>']))
      (.set t) := by
  intro rest _
  have inner := element ('>' :: rest) (ends_closing rest)
  have parts := reader_set inner
  simpa using parts

theorem reads_map {k x : Ty} (key : Reads endsType (reader resolve (depth + 1)) u k)
    (value : Reads endsType (reader resolve (depth + 1)) v x) :
    Reads endsType (reader resolve (depth + 2))
      ("map".toList ++ '<' :: ((u ++ ',' :: ' ' :: v) ++ ['>'])) (.map k x) := by
  intro rest _
  have first := key (',' :: ' ' :: (v ++ '>' :: rest)) (by simp [endsType])
  have second := value ('>' :: rest) (ends_closing rest)
  rw [← skipsBlank_reader] at second
  have parts := reader_map first second
  simpa using parts

theorem list_of_heads {α β : Type} {item : Reader α} {text : β → List Char} {value : β → α}
    (skips : Reader.SkipsBlank item) {ys : List β}
    (heads : ∀ y ∈ ys, ∃ c ∈ (text y).head?, isNameChar c)
    (reads : ∀ y ∈ ys, Reads endsType item (text y) (value y)) (rest : List Char) :
    Reader.list item '>' ([',', ' '].intercalate (ys.map text) ++ '>' :: rest) =
      .ok (ys.map value, rest) := by
  apply Reader.list_of_reads skips rfl rfl rfl (by decide) _ reads
  intro y hy
  obtain ⟨c, first, name⟩ := heads y hy
  refine ⟨c, first, isBlank_of_isNameChar name, ?_⟩
  rintro rfl
  contradiction

theorem reads_tuple {ts : List Ty} (heads : ∀ t ∈ ts, ∃ c ∈ t.text.toList.head?, isNameChar c)
    (elements : ∀ t ∈ ts, Reads endsType (reader resolve (depth + 1)) t.text.toList t) :
    Reads endsType (reader resolve (depth + 2)) (tuple ts).text.toList (.tuple ts) := by
  intro rest _
  have list := list_of_heads (skipsBlank_reader resolve depth) heads elements rest
  have parts := reader_tuple list
  rw [toList_tuple]
  simpa using parts

theorem reads_user {fields : List (String × Ty)} (names : ∀ f ∈ fields, BareName f.1)
    (types : ∀ f ∈ fields, Reads endsType (reader resolve (depth + 1)) f.2.text.toList f.2) :
    Reads endsType (reader resolve (depth + 2)) (user none fields).text.toList
      (.user none fields) := by
  intro rest _
  have list := list_of_heads (skipsBlank_fieldReader _)
    (fun f hf => exists_head_of_bare (names f hf) _)
    (fun f hf => fieldReader_of_reads (names f hf) (types f hf)) rest
  have parts := reader_userType list
  rw [toList_user]
  simpa using parts

end Reads

end Ty

namespace Registry

open Reader (Reads)

variable {r : Registry} {t : Ty}

/-- Every type in the registry is found by the name that stands for it in a text. -/
def Legible (r : Registry) : Prop :=
  ∀ e ∈ r.types, ∃ keyspace name, e.2.label = some ⟨some keyspace, name⟩ ∧
    Ty.BareName keyspace ∧ Ty.BareName name ∧ Ty.Unreserved keyspace ∧
      r.resolve (some keyspace) name = some e.2.ty

theorem legible_registerAll (new : r.types = []) {registrations : List Registration}
    (names : ∀ c ∈ registrations,
      Ty.BareName c.keyspace ∧ Ty.BareName c.name ∧ Ty.Unreserved c.keyspace) :
    Legible (r.registerAll registrations) := by
  intro e he
  obtain ⟨c, hc, label, found⟩ := exists_registration new he
  obtain ⟨keyspace, name, free⟩ := names c hc
  exact ⟨c.keyspace, c.name, label, keyspace, name, free, found⟩

theorem text_of_label {u : UserType} {label : Label} (h : u.label = some label) :
    u.ty.text = label.text := by
  obtain ⟨label', fields⟩ := u
  obtain rfl : label' = some label := h
  rfl

theorem exists_head_text (legible : Legible r) (writes : Writes r t) :
    ∃ c ∈ t.text.toList.head?, Ty.isNameChar c := by
  cases writes with
  | scalar s =>
    have head := Ty.exists_head_of_bare (Ty.bareName_scalar s) []
    rwa [List.append_nil] at head
  | list _ => exact Ty.toList_list _ ▸ ⟨'l', rfl, rfl⟩
  | set _ => exact Ty.toList_set _ ▸ ⟨'s', rfl, rfl⟩
  | map _ _ => exact Ty.toList_map _ _ ▸ ⟨'m', rfl, rfl⟩
  | tuple _ => exact Ty.toList_tuple _ ▸ ⟨'t', rfl, rfl⟩
  | anonymous _ _ => exact Ty.toList_user _ ▸ ⟨'u', rfl, rfl⟩
  | registered held =>
    obtain ⟨keyspace, name, label, bare, -⟩ := legible _ held
    rw [text_of_label label, Ty.toList_label]
    exact Ty.exists_head_of_bare bare _

theorem exists_inner {keyword inner : List Char} {depth : Nat}
    (enough : (keyword ++ '<' :: (inner ++ ['>'])).length ≤ depth) :
    ∃ n, depth = n + 1 ∧ inner.length ≤ n := by
  simp only [List.length_append, List.length_cons, List.length_nil] at enough
  exact ⟨depth - 1, by omega, by omega⟩

/-- A type is read from its text, whatever follows, by a reader that may go as deep as the text is
long. -/
theorem reads_text (legible : Legible r) (writes : Writes r t) {depth : Nat}
    (enough : t.text.toList.length ≤ depth) :
    Reads Ty.endsType (Ty.reader r.resolve (depth + 1)) t.text.toList t := by
  induction writes generalizing depth with
  | scalar s =>
    intro rest ends
    exact Ty.reader_scalar (Ty.nameReader_of_ends (Ty.bareName_scalar s) ends)
  | list _ ih =>
    rw [Ty.toList_list] at enough ⊢
    obtain ⟨depth, rfl, within⟩ := exists_inner enough
    exact Ty.reads_list (ih within)
  | set _ ih =>
    rw [Ty.toList_set] at enough ⊢
    obtain ⟨depth, rfl, within⟩ := exists_inner enough
    exact Ty.reads_set (ih within)
  | map _ _ ihKey ihValue =>
    rw [Ty.toList_map] at enough ⊢
    obtain ⟨depth, rfl, within⟩ := exists_inner enough
    rw [List.length_append, List.length_cons, List.length_cons] at within
    apply Ty.reads_map
    · exact ihKey (by omega)
    · exact ihValue (by omega)
  | tuple elements ih =>
    rw [Ty.toList_tuple] at enough
    obtain ⟨depth, rfl, within⟩ := exists_inner enough
    apply Ty.reads_tuple
    · exact fun t ht => exists_head_text legible (elements t ht)
    · exact fun t ht => ih t ht ((Reader.length_le_of_mem ht).trans within)
  | anonymous names _ ih =>
    rw [Ty.toList_user] at enough
    obtain ⟨depth, rfl, within⟩ := exists_inner enough
    apply Ty.reads_user names
    intro f hf
    have shorter : (f.1.toList ++ ':' :: f.2.text.toList).length ≤ depth :=
      (Reader.length_le_of_mem hf).trans within
    rw [List.length_append, List.length_cons] at shorter
    exact ih f hf (by omega)
  | registered held =>
    intro rest ends
    obtain ⟨keyspace, name, label, bareKeyspace, bareName, free, found⟩ := legible _ held
    have outer : Ty.nameReader (keyspace.toList ++ '.' :: (name.toList ++ rest)) =
        .ok (keyspace, _) := Ty.nameReader_of_bare bareKeyspace (by simp; rfl)
    rw [text_of_label label, Ty.toList_label, List.append_assoc, List.cons_append]
    exact Ty.reader_qualified free outer (Ty.nameReader_of_ends bareName ends) found

/-- After any types with bare names have been registered in a new registry, in keyspaces whose names
mean nothing else, the text of every type made up of types now in it is read as this type. -/
theorem parseWith_text (new : r.types = []) {registrations : List Registration}
    (names : ∀ c ∈ registrations,
      Ty.BareName c.keyspace ∧ Ty.BareName c.name ∧ Ty.Unreserved c.keyspace)
    (writes : Writes (r.registerAll registrations) t) :
    Ty.parseWith (r.registerAll registrations).resolve t.text = .ok t := by
  have legible := legible_registerAll new names
  have reads : Reads Ty.endsType
      (fun s => Ty.reader (r.registerAll registrations).resolve (s.length + 1) s)
      t.text.toList t := by
    intro rest ends
    have enough : t.text.toList.length ≤ (t.text.toList ++ rest).length := by
      rw [List.length_append]
      exact Nat.le_add_right _ _
    exact reads_text legible writes enough rest ends
  exact Reader.whole_of_reads .typeText reads

theorem parseWith_text_nested :
    let registrations : List Registration :=
      [⟨"shop", "address", [("street", .scalar .text)]⟩, ⟨"UserType", "x_1", []⟩,
        ⟨"Shop", "Address", [("zip", .scalar .int)]⟩]
    let r := (forKeyspace "shop").registerAll registrations
    let address : UserType := ⟨some ⟨some "Shop", "Address"⟩, [("zip", .scalar .int)]⟩
    let x : UserType := ⟨some ⟨some "UserType", "x_1"⟩, []⟩
    let t : Ty := .map address.ty
      (.tuple [.user none [("a", .list x.ty), ("a", .tuple [])], .user none []])
    Ty.parseWith r.resolve t.text = .ok t := by
  intro registrations r address x t
  have names : ∀ c ∈ registrations,
      Ty.BareName c.keyspace ∧ Ty.BareName c.name ∧ Ty.Unreserved c.keyspace := by decide
  have types : r.types = [("shop.address", address), ("usertype.x_1", x)] := rfl
  have key : Writes r address.ty :=
    .registered (e := ("shop.address", address)) (types ▸ List.mem_cons_self)
  have element : Writes r x.ty :=
    .registered (e := ("usertype.x_1", x)) (types ▸ List.mem_cons_of_mem _ List.mem_cons_self)
  have fields : Writes r (.user none [("a", .list x.ty), ("a", .tuple [])]) := by
    apply Writes.anonymous (by decide)
    intro f hf
    rcases List.mem_cons.mp hf with rfl | hf
    · exact .list element
    · obtain rfl := List.mem_singleton.mp hf
      exact .tuple fun t ht => absurd ht List.not_mem_nil
  have value :
      Writes r (.tuple [.user none [("a", .list x.ty), ("a", .tuple [])], .user none []]) := by
    apply Writes.tuple
    intro t ht
    rcases List.mem_cons.mp ht with rfl | ht
    · exact fields
    · obtain rfl := List.mem_singleton.mp ht
      exact .anonymous (by decide) fun f hf => absurd hf List.not_mem_nil
  exact parseWith_text rfl names (.map key value)

end Registry

end Cql
