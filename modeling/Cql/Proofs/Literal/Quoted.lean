import Cql.Proofs.Literal.Delimited
import Cql.Proofs.Literal.WellTyped
import Cql.Proofs.Ty.Grammar

/-!
Names of fields in double quotes. In a type a quote within the name is written twice; in a literal
the name ends at the next quote. So a field is found by the way its name is written in types exactly
if there is no quote in the name.
-/

namespace Cql

open Container (emptySlots getField?)

namespace Ty

def quoted (name : String) : String := quoteText '"' name

/-- A field with its name in quotes is read as a field of that name, whatever the name. -/
theorem parseWith_quoted {resolve : Resolver} {text : String} {t : Ty} (name : String)
    (read : parseWith resolve text = .ok t) :
    parseWith resolve ("userType<" ++ quoted name ++ ":" ++ text ++ ">") =
      .ok (.user none [(name, t)]) := by
  obtain ⟨rest, read, blank⟩ := Phrase.whole_eq_ok_iff.mp read
  obtain ⟨s, split, denotes⟩ := sound_reader resolve _ read
  let word := '"' :: (doubled '"' name.toList ++ ['"'])
  let body := word ++ [':'] ++ s ++ (rest ++ ['>'])
  have written : Word word name := .inr ⟨[], by simp [Blank], rfl⟩
  have colon : Phrase.Mark ':' [':'] := ⟨[], by simp [Blank], rfl⟩
  have closed : Phrase.Mark '>' (rest ++ ['>']) := ⟨rest, blank, rfl⟩
  have listing : Phrase.Listing (FieldPhrase (Denotes Word resolve)) '>' body [(name, t)] :=
    .some (.last (.field written colon denotes) closed)
  have chars : ("userType<" ++ quoted name ++ ":" ++ text ++ ">").toList =
      "userType".toList ++ '<' :: body := by
    simp [quoted, body, word, split]
  refine Phrase.whole_eq_ok_iff.mpr ⟨[], ?_, by simp [Blank]⟩
  rw [chars]
  apply reader_userType
  have short : body.length ≤ ("userType".toList ++ '<' :: body).length :=
    ((List.suffix_cons '<' body).trans (List.suffix_append _ _)).length_le
  have list := @Phrase.list_of_phrase _ _ _ _ _ _ [] _ rfl (by decide)
    (complete_fieldReader (complete_reader resolve _)) opens_of_field listing short
  rwa [List.append_nil] at list

end Ty

namespace Literal

variable {u : UserType} {t : Ty} {v : Value} {name literal : String}

def oneField (name literal : String) : String :=
  enclosed '{' '}' [Ty.quoted name ++ ": " ++ literal]

theorem toList_oneField :
    (oneField name literal).toList =
      '{' :: '"' :: (doubled '"' name.toList ++ '"' :: ':' :: ' ' :: (literal.toList ++ ['}'])) := by
  simp [oneField, enclosed, Ty.quoted]

theorem bne_of_plain {front : List Char} (plain : '"' ∉ front) :
    ∀ c ∈ front, (c != '"') = true := by
  intro c member
  simpa using fun same : c = '"' => plain (same ▸ member)

/-- A name in quotes ends at the next quote. -/
theorem nameReader_quoted {front : List Char} (plain : '"' ∉ front) (rest : List Char) :
    nameReader ('"' :: (front ++ '"' :: rest)) = .ok (String.ofList front, rest) := by
  have stop : ∀ c ∈ ('"' :: rest).head?, (c != '"') = false := by simp
  have run := takeWhile_run (bne_of_plain plain) stop
  have left := dropWhile_run (bne_of_plain plain) stop
  have solid : isBlank '"' = false := rfl
  unfold nameReader
  rw [trimStart_cons solid]
  simp only [run, left]

section Plain

variable (plain : '"' ∉ name.toList) (field : u.field? name = some t)
  (read : t.parseLiteral literal = .ok v)
include field

theorem create_oneField (fits : Value.Fits t v) :
    ∃ xs, u.ty.create [.text name, v] = .ok (.user u xs) ∧ getField? u xs name = some v := by
  obtain ⟨index, first, own⟩ := Option.bind_eq_some_iff.mp
    ((Container.lookup_eq_bind name u.fields).symm.trans field)
  have bound : index < u.fields.length := by simpa using (List.getElem?_eq_some_iff.mp own).1
  have stored : Container.setField u (emptySlots u.fields.length) name v =
      .ok ((emptySlots u.fields.length).set index v) :=
    Container.setField_eq_ok_iff.mpr ⟨index, t, v, first, own, fits, rfl⟩
  refine ⟨(emptySlots u.fields.length).set index v, ?_, ?_⟩
  · simp [UserType.ty, Ty.create, pairs, Container.fillFields, Value.asText?, stored, bind,
      Except.bind, Except.map]
  · have found : u.fieldIndex? name = some index := first
    simp [getField?, found, emptySlots, bound]

include plain read

theorem parseLiteral_of_plain :
    ∃ xs, u.ty.parseLiteral (oneField name literal) = .ok (.user u xs) ∧
      getField? u xs name = some v := by
  obtain ⟨xs, made, held⟩ := create_oneField field (Ty.fits_of_parseLiteral read)
  refine ⟨xs, Phrase.whole_eq_ok_iff.mpr ⟨[], ?_, by simp [Blank]⟩, held⟩
  obtain ⟨rest, inner, blank⟩ := Phrase.whole_eq_ok_iff.mp read
  -- The brace behind the literal of the field does not change how that is read.
  have delimited : Delimited ['}'] := ⟨'}', rfl, rfl⟩
  obtain ⟨-, value⟩ := carried_reader delimited literal (oneField name literal) t inner
  rw [← skipsBlank_reader] at value
  have found : (fieldReaders (oneField name literal) u.fields).lookup name =
      some (reader (oneField name literal) t) := by
    rw [lookup_fieldReaders]
    exact congrArg (Option.map _) field
  have named := nameReader_quoted plain (':' :: ' ' :: (literal.toList ++ ['}']))
  rw [String.ofList_toList] at named
  have item : fieldReader (fieldReaders (oneField name literal) u.fields)
      ('"' :: (name.toList ++ '"' :: ':' :: ' ' :: (literal.toList ++ ['}']))) =
        .ok ([.text name, v], rest ++ ['}']) := by
    simp only [fieldReader, named, found, expect_colon, value, bind, Except.bind, pure, Except.pure]
  have closed := @Phrase.eat?_mark '}' _ [] rfl ⟨rest, blank, rfl⟩
  rw [List.append_nil] at closed
  have items : Reader.list (fieldReader (fieldReaders (oneField name literal) u.fields)) '}'
      ('"' :: (name.toList ++ '"' :: ':' :: ' ' :: (literal.toList ++ ['}']))) =
        .ok ([[.text name, v]], []) := by
    unfold Reader.list
    rw [Reader.eat?_other rfl (by decide)]
    exact Reader.items_last item closed
  rw [toList_oneField, doubled_of_plain plain]
  exact reader_user items made

end Plain

section Quote

def outer (name : String) : String := String.ofList (name.toList.takeWhile (· != '"'))

/-- What is wrong with a name that is taken to end at the first quote in it: there is another quote
behind it, unless it is the name of no field. -/
def quoteFault (u : UserType) (name input : String) : Fault :=
  match u.field? (outer name) with
  | some _ => .unexpectedChar .literal '"' (utf8Length (outer name).toList + 3) input
  | none => .unknownField (outer name)

variable {input : String} {s : List Char} {stop : Stop}

theorem parseLiteral_of_stop (chars : input.toList = '{' :: '"' :: s)
    (stopped : fieldReader (fieldReaders input u.fields) ('"' :: s) = .error stop) :
    u.ty.parseLiteral input = .error (stop.fault .literal input) := by
  obtain ⟨null, opened⟩ := open_of_bracket (.inr (.inl rfl)) ('"' :: s)
  have list : Reader.list (fieldReader (fieldReaders input u.fields)) '}' ('"' :: s) =
      .error stop := by
    unfold Reader.list
    rw [Reader.eat?_other rfl (by decide)]
    simp only [Reader.items, stopped, bind, Except.bind]
  unfold Ty.parseLiteral Reader.whole
  rw [chars]
  simp only [UserType.ty, reader, null, opened, list, bind, Except.bind]

section Split

variable {front back : List Char} (split : name.toList = front ++ '"' :: back)
  (plain : '"' ∉ front)
include split plain

theorem outer_eq : outer name = String.ofList front := by
  unfold outer
  rw [split, takeWhile_run (bne_of_plain plain) (by simp)]

theorem exists_toList_oneField (literal : String) :
    ∃ rest, (oneField name literal).toList = '{' :: '"' :: (front ++ '"' :: '"' :: rest) := by
  refine ⟨doubled '"' back ++ '"' :: ':' :: ' ' :: (literal.toList ++ ['}']), ?_⟩
  rw [toList_oneField, split, doubled_append, doubled_of_plain plain, doubled, if_pos rfl]
  simp

end Split

theorem utf8Length_before (front rest : List Char) :
    utf8Length ('{' :: '"' :: (front ++ '"' :: rest)) - utf8Length rest = utf8Length front + 3 := by
  have brace : '{'.utf8Size = 1 := rfl
  have quote : '"'.utf8Size = 1 := rfl
  rw [utf8Length, utf8Length, utf8Length_append, utf8Length, brace, quote]
  omega

theorem parseLiteral_of_quote (quote : '"' ∈ name.toList) :
    u.ty.parseLiteral (oneField name literal) =
      .error (quoteFault u name (oneField name literal)) := by
  obtain ⟨front, back, split, plain⟩ := List.eq_append_cons_of_mem quote
  have front_eq := outer_eq split plain
  obtain ⟨rest, chars⟩ := exists_toList_oneField split plain literal
  have named := nameReader_quoted plain ('"' :: rest)
  rw [← front_eq] at named
  have lookup : (fieldReaders (oneField name literal) u.fields).lookup (outer name) =
      (u.field? (outer name)).map (reader (oneField name literal)) := lookup_fieldReaders _ _
  unfold quoteFault
  cases field : u.field? (outer name) with
  | none =>
    rw [field, Option.map_none] at lookup
    have stopped : fieldReader (fieldReaders (oneField name literal) u.fields)
        ('"' :: (front ++ '"' :: '"' :: rest)) = .error (.refused (.unknownField (outer name))) := by
      simp only [fieldReader, named, lookup, bind, Except.bind]
      rfl
    exact parseLiteral_of_stop chars stopped
  | some t =>
    rw [field, Option.map_some] at lookup
    have colon : Reader.expect ':' ('"' :: rest) = .error (.unexpected ('"' :: rest)) := rfl
    have stopped : fieldReader (fieldReaders (oneField name literal) u.fields)
        ('"' :: (front ++ '"' :: '"' :: rest)) = .error (.unexpected ('"' :: rest)) := by
      simp only [fieldReader, named, lookup, colon, bind, Except.bind]
    rw [parseLiteral_of_stop chars stopped, front_eq, String.toList_ofList,
      ← utf8Length_before front ('"' :: rest), ← chars]
    rfl

end Quote

/-- A field is given a value by its name as it is written in types exactly if there is no quote in
the name; else the literal is refused. A type with the field is read in each case. -/
theorem parseLiteral_quoted_iff (field : u.field? name = some t)
    (read : t.parseLiteral literal = .ok v) :
    let given := u.ty.parseLiteral (oneField name literal)
    ((∃ xs, given = .ok (.user u xs) ∧ getField? u xs name = some v) ↔ '"' ∉ name.toList) ∧
      ('"' ∈ name.toList → given = .error (quoteFault u name (oneField name literal))) ∧
      ∀ (resolve : Resolver) (text : String), Ty.parseWith resolve text = .ok t →
        Ty.parseWith resolve ("userType<" ++ Ty.quoted name ++ ":" ++ text ++ ">") =
          .ok (.user none [(name, t)]) := by
  intro given
  refine ⟨⟨?_, fun plain => parseLiteral_of_plain plain field read⟩, parseLiteral_of_quote,
    fun _ _ type => Ty.parseWith_quoted name type⟩
  rintro ⟨xs, taken, -⟩ quote
  have refused : given = _ := parseLiteral_of_quote quote
  rw [taken] at refused
  cases refused

theorem parseLiteral_quoted_iff_names :
    let u : UserType := ⟨none, [("a", .scalar .text), ("a, é", .scalar .int), ("a\"", .scalar .int)]⟩
    let seven : Value := .fixed .int ⟨7, by decide, by decide⟩
    (Ty.scalar .int).parseLiteral "+7 " = .ok seven ∧
      (∃ xs, u.ty.parseLiteral (oneField "a, é" "+7 ") = .ok (.user u xs) ∧
        getField? u xs "a, é" = some seven) ∧
      u.ty.parseLiteral (oneField "a\"" "+7 ") =
        .error (.unexpectedChar .literal '"' 4 (oneField "a\"" "+7 ")) := by
  intro u seven
  have read : (Ty.scalar .int).parseLiteral "+7 " = .ok seven := rfl
  have named : u.field? "a, é" = some (.scalar .int) := rfl
  have quoted : u.field? "a\"" = some (.scalar .int) := rfl
  have plain : '"' ∉ "a, é".toList := by decide
  have quote : '"' ∈ "a\"".toList := by decide
  have fault : quoteFault u "a\"" (oneField "a\"" "+7 ") =
      .unexpectedChar .literal '"' 4 (oneField "a\"" "+7 ") := by
    have front : outer "a\"" = "a" := rfl
    have other : u.field? "a" = some (.scalar .text) := rfl
    unfold quoteFault
    rw [front, other]
    rfl
  obtain ⟨holds, -, -⟩ := parseLiteral_quoted_iff named read
  obtain ⟨-, refused, -⟩ := parseLiteral_quoted_iff quoted read
  exact ⟨read, holds.mpr plain, (refused quote).trans (congrArg _ fault)⟩

/-- The type is read with the name as it stands in the literal, but not the literal. -/
theorem parseLiteral_quoted_refused :
    let u : UserType := ⟨none, [("a\"b", .scalar .int)]⟩
    let given := String.ofList ['{', '"', 'a', '"', '"', 'b', '"', ':', ' ', '1', '}']
    Ty.parse "userType<\"a\"\"b\":int>" = .ok u.ty ∧
      (Ty.scalar .int).parseLiteral "1" = .ok (.fixed .int ⟨1, by decide, by decide⟩) ∧
      oneField "a\"b" "1" = given ∧
      u.ty.parseLiteral given = .error (.unknownField "a") ∧
      ¬ ∀ (u : UserType) (name literal : String) (t : Ty) (v : Value), u.field? name = some t →
        t.parseLiteral literal = .ok v →
          ∃ xs, u.ty.parseLiteral (oneField name literal) = .ok (.user u xs) ∧
            getField? u xs name = some v := by
  intro u given
  have type : Ty.parse "userType<\"a\"\"b\":int>" = .ok u.ty := rfl
  have field : u.field? "a\"b" = some (.scalar .int) := rfl
  have read : (Ty.scalar .int).parseLiteral "1" = .ok (.fixed .int ⟨1, by decide, by decide⟩) := rfl
  have written : oneField "a\"b" "1" = given := rfl
  have chars : given.toList = ['{', '"', 'a', '"', '"', 'b', '"', ':', ' ', '1', '}'] :=
    String.toList_ofList
  have stopped : fieldReader (fieldReaders given u.fields)
      ['"', 'a', '"', '"', 'b', '"', ':', ' ', '1', '}'] = .error (.refused (.unknownField "a")) :=
    rfl
  have refused : u.ty.parseLiteral given = .error (.unknownField "a") :=
    parseLiteral_of_stop chars stopped
  refine ⟨type, read, written, refused, fun always => ?_⟩
  obtain ⟨xs, taken, -⟩ := always u "a\"b" "1" _ _ field read
  rw [written, refused] at taken
  cases taken

end Literal

end Cql
