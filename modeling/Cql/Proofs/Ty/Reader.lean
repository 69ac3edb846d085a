import Cql.Ty.Parser
import Cql.Proofs.Reader

namespace Cql

namespace Ty

/-- A name that is read as it stands: ASCII letters, digits and underscores. -/
def BareName (name : String) : Prop := name.toList ≠ [] ∧ ∀ c ∈ name.toList, isNameChar c

instance (name : String) : Decidable (BareName name) :=
  decidable_of_iff' (name.toList ≠ [] ∧ name.toList.all isNameChar) (by simp [BareName])

/-- A name that is, in any case, neither that of a scalar nor a keyword with types after it. -/
def Unreserved (name : String) : Prop :=
  (∀ s : Scalar, sameName name s.name = false) ∧ ∀ b : Builder, sameName name b.name = false

theorem unreserved_iff {name : String} :
    Unreserved name ↔ Scalar.ofName? name = none ∧ Builder.ofName? name = none := by
  apply and_congr
  · simp [Scalar.ofName?, Scalar.mem_all]
  · have all : ∀ b, b ∈ Builder.all := fun b => by cases b <;> decide
    simp [Builder.ofName?, all]

instance (name : String) : Decidable (Unreserved name) := decidable_of_iff' _ unreserved_iff

namespace Builder

theorem ofName?_name (b : Builder) : ofName? b.name = some b := by cases b <;> rfl

end Builder

section Names

variable {name : String} {c : Char}

theorem isBlank_of_isNameChar (h : isNameChar c) : isBlank c = false := by
  rcases (by simpa [isNameChar] using h : c.isAlphanum ∨ c = '_') with h | rfl
  · exact isBlank_of_isAlphanumeric (isAlphanumeric_of_isAlphanum h)
  · rfl

theorem bareName_scalar (s : Scalar) : BareName s.name := by cases s <;> decide

theorem bareName_builder (b : Builder) : BareName b.name := by cases b <;> decide

theorem ofName?_scalar (s : Scalar) : Builder.ofName? s.name = none := by cases s <;> rfl

theorem sameName_scalar_userType (s : Scalar) : sameName s.name "userType" = false := by
  cases s <;> rfl

theorem nameReader_of_bare (bare : BareName name) {rest : List Char}
    (stop : ∀ c ∈ rest.head?, isNameChar c = false) :
    nameReader (name.toList ++ rest) = .ok (name, rest) := by
  obtain ⟨nonempty, parts⟩ := bare
  obtain ⟨c, t, text⟩ := List.exists_cons_of_ne_nil nonempty
  have first : isNameChar c := parts c (by rw [text]; exact List.mem_cons_self)
  have run := takeWhile_run parts stop
  have left := dropWhile_run parts stop
  unfold nameReader
  rw [text, List.cons_append, trimStart_cons (isBlank_of_isNameChar first)]
  split
  · rename_i same
    obtain rfl := (List.cons.inj same).1
    contradiction
  · rw [← List.cons_append, ← text]
    simp [run, left, nonempty]

end Names

section Readers

open Reader (SkipsBlank)

variable {resolve : Resolver} {depth : Nat} {t k v : Ty} {r s u : List Char}

theorem skipsBlank_reader (resolve : Resolver) (depth : Nat) :
    SkipsBlank (reader resolve (depth + 1)) := by
  intro s
  have name : nameReader (' ' :: s) = nameReader s := rfl
  simp only [reader, name]

theorem skipsBlank_fieldReader {α : Type} (inner : Reader α) : SkipsBlank (fieldReader inner) := by
  intro s
  have name : nameReader (' ' :: s) = nameReader s := rfl
  simp only [fieldReader, name]

section Builders

theorem nameReader_builder (b : Builder) (s : List Char) :
    nameReader (b.name.toList ++ '<' :: s) = .ok (b.name, '<' :: s) :=
  nameReader_of_bare (bareName_builder b) (by simp; rfl)

theorem expect_opening (s : List Char) : Reader.expect '<' ('<' :: s) = .ok s :=
  Reader.expect_self rfl

theorem expect_closing (s : List Char) : Reader.expect '>' ('>' :: s) = .ok s :=
  Reader.expect_self rfl

theorem reader_list (element : reader resolve depth s = .ok (t, '>' :: u)) :
    reader resolve (depth + 1) ("list".toList ++ '<' :: s) = .ok (.list t, u) := by
  have name : nameReader ("list".toList ++ '<' :: s) = _ := nameReader_builder .list s
  have known : Builder.ofName? "list" = _ := Builder.ofName?_name .list
  simp only [reader, name, Builder.name, known, expect_opening, element, expect_closing, bind,
    Except.bind, pure, Except.pure]

theorem reader_set (element : reader resolve depth s = .ok (t, '>' :: u)) :
    reader resolve (depth + 1) ("set".toList ++ '<' :: s) = .ok (.set t, u) := by
  have name : nameReader ("set".toList ++ '<' :: s) = _ := nameReader_builder .set s
  have known : Builder.ofName? "set" = _ := Builder.ofName?_name .set
  simp only [reader, name, Builder.name, known, expect_opening, element, expect_closing, bind,
    Except.bind, pure, Except.pure]

theorem reader_map (key : reader resolve depth s = .ok (k, ',' :: r))
    (value : reader resolve depth r = .ok (v, '>' :: u)) :
    reader resolve (depth + 1) ("map".toList ++ '<' :: s) = .ok (.map k v, u) := by
  have name : nameReader ("map".toList ++ '<' :: s) = _ := nameReader_builder .map s
  have known : Builder.ofName? "map" = _ := Builder.ofName?_name .map
  have comma : Reader.expect ',' (',' :: r) = .ok r := Reader.expect_self rfl
  simp only [reader, name, Builder.name, known, expect_opening, key, comma, value, expect_closing,
    bind, Except.bind, pure, Except.pure]

theorem reader_tuple {ts : List Ty}
    (elements : Reader.list (reader resolve depth) '>' s = .ok (ts, u)) :
    reader resolve (depth + 1) ("tuple".toList ++ '<' :: s) = .ok (.tuple ts, u) := by
  have name : nameReader ("tuple".toList ++ '<' :: s) = _ := nameReader_builder .tuple s
  have known : Builder.ofName? "tuple" = _ := Builder.ofName?_name .tuple
  simp only [reader, name, Builder.name, known, expect_opening, elements, bind, Except.bind, pure,
    Except.pure]

end Builders

theorem reader_userType {fields : List (String × Ty)}
    (list : Reader.list (fieldReader (reader resolve depth)) '>' s = .ok (fields, u)) :
    reader resolve (depth + 1) ("userType".toList ++ '<' :: s) = .ok (.user none fields, u) := by
  have name : nameReader ("userType".toList ++ '<' :: s) = .ok ("userType", '<' :: s) :=
    nameReader_of_bare (by decide) (by simp; rfl)
  have unknown : Builder.ofName? "userType" = none := rfl
  have same : sameName "userType" "userType" = true := rfl
  have opening : Reader.eat? '<' ('<' :: s) = some s := Reader.eat?_self rfl
  simp only [reader, name, unknown, same, opening, list, bind, Except.bind, pure, Except.pure,
    if_true]

theorem reader_scalar {k : Scalar} (name : nameReader s = .ok (k.name, u)) :
    reader resolve (depth + 1) s = .ok (.scalar k, u) := by
  simp only [reader, name, ofName?_scalar, sameName_scalar_userType, namedReader,
    Scalar.ofName?_name, bind, Except.bind]
  rfl

theorem reader_qualified {keyspace name : String} (free : Unreserved keyspace)
    (outer : nameReader s = .ok (keyspace, '.' :: r)) (inner : nameReader r = .ok (name, u))
    (found : resolve (some keyspace) name = some t) :
    reader resolve (depth + 1) s = .ok (t, u) := by
  obtain ⟨noScalar, noBuilder⟩ := unreserved_iff.mp free
  have closed : Reader.eat? '<' ('.' :: r) = none := Reader.eat?_other rfl (by decide)
  have point : Reader.eat? '.' ('.' :: r) = some r := Reader.eat?_self rfl
  simp only [reader, outer, noBuilder, closed, namedReader, noScalar, point, inner, found, bind,
    Except.bind, pure, Except.pure, ite_self]

theorem fieldReader_of_reads {α : Type} {stop : Char → Bool} {inner : Reader α} {x : α}
    {name : String} (bare : BareName name) (reads : Reader.Reads stop inner s x) :
    Reader.Reads stop (fieldReader inner) (name.toList ++ ':' :: s) (name, x) := by
  intro rest ends
  have first : nameReader (name.toList ++ ':' :: (s ++ rest)) = .ok (name, ':' :: (s ++ rest)) :=
    nameReader_of_bare bare (by simp; rfl)
  have colon : Reader.expect ':' (':' :: (s ++ rest)) = .ok (s ++ rest) := Reader.expect_self rfl
  rw [List.append_assoc, List.cons_append]
  simp only [fieldReader, first, colon, reads rest ends, bind, Except.bind, pure, Except.pure]

end Readers

end Ty

end Cql
