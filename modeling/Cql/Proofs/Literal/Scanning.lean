import Cql.Literal.Scanning
import Cql.Proofs.Literal.Delimited
import Cql.Proofs.Literal.Reader
import Cql.Proofs.Scan

namespace Cql

namespace Literal.Scanning

open Scan
open Cursor (At Near)

variable {α : Type} {source : Source} {bound : Nat} {s : List Char}
  (enough : source.chars.length < source.rounds)

section Null

include enough

theorem mirrors_null {f : Bool → Scan α} {outcome : Except Stop (α × List Char)}
    (present : ∀ rest, null? s = some rest → rest.length < (trimStart s).length →
      Mirrors source (At source rest) bound (f true) outcome)
    (absent : null? s = none → Mirrors source (At source (trimStart s)) bound (f false) outcome) :
    Mirrors source (Near source s) bound (null source >>= f) outcome := by
  have keyword (word : List Char) := sameName_ofList_iff word "null" rfl
  let goesOn (c : Char) : Bool := isAlphanumeric c || c == '_'
  have ended (rest : List Char) :
      rest.head?.any goesOn = false ↔ ∀ c ∈ rest.head?, goesOn c = false := by
    cases rest <;> simp
  unfold Scanning.null
  simp only [bind_assoc]
  refine mirrors_skipBlanks enough (.of_split fun front split => ?_)
  refine goes_position.then_ ((goes_cut (piece?_left split)).then_ (goes_cut?.then_ ?_))
  cases null : null? s with
  | some rest =>
    obtain ⟨w, trimmed, letters, ends⟩ := null?_eq_some_iff.mp null
    have size : utf8Length w = 4 := utf8Length_of_toLower (k := "null") letters (by decide)
    have behind := piece?_behind w rest
    have shorter : rest.length < (trimStart s).length := by
      have four : w.length = 4 := by simpa [IsNull] using congrArg List.length letters
      rw [trimmed, List.length_append]
      omega
    rw [size] at behind
    rw [trimmed, piece?_front.mpr ⟨rest, rfl, size⟩]
    simp only [(keyword w).mpr letters, if_true, bind_assoc]
    refine (goes_cut behind).then_ ?_
    rw [if_neg (by simpa using (ended rest).mpr ends)]
    simp only [bind_assoc, pure_bind]
    exact (goes_advance size.symm).then_ (present rest null shorter)
  | none =>
    cases there : piece? (trimStart s) 0 4 with
    | none => exact absent null
    | some w =>
      dsimp only
      split_ifs with same
      · obtain ⟨rest, trimmed, size⟩ := piece?_front.mp there
        have behind := piece?_behind w rest
        rw [size, ← trimmed] at behind
        have longer : rest.head?.any goesOn = true := by
          by_contra none
          have ends := (ended rest).mp (by simpa using none)
          rw [null?_eq_some_iff.mpr ⟨w, trimmed, (keyword w).mp same, ends⟩] at null
          contradiction
        simp only [bind_assoc]
        refine (goes_cut behind).then_ ?_
        rw [if_pos longer, pure_bind]
        exact absent null
      · exact absent null

end Null

section Tokens

include enough

theorem mirrors_token :
    Mirrors source (Near source s) (trimStart s).length (token source) (Token.reader s) := by
  have trimmed := trimStart_trimStart s
  refine mirrors_skipBlanks enough ?_
  unfold Token.reader
  generalize trimStart s = t at trimmed
  cases quote : Reader.eat? '\'' t with
  | some u =>
    obtain rfl := trimmed.symm.trans (trimStart_of_eat? quote)
    refine Mirrors.here (.eaten enough rfl quote fun _ => .of_split fun front split => ?_)
    have within := lt_rounds_of_split enough split
    refine (mirrors_quoted rfl within).bind fun text rest fewer => ?_
    exact mirrors_pure (⟨String.ofList text, true⟩ : Token) (by rw [List.length_cons]; omega)
  | none =>
    refine Mirrors.here (.passed enough quote ?_)
    rw [trimmed]
    refine .of_split fun front split => goes_position.then_ ?_
    have within := lt_rounds_of_split enough split
    refine (goes_skipWhile (fun _ _ => rfl) within).then_ (goes_position.then_ ?_)
    split
    · simp [Reader.eat?, trimmed] at quote
    · dsimp only
      have parts : t.takeWhile (!Token.isDelimiter ·) ++ t.dropWhile (!Token.isDelimiter ·) = t :=
        List.takeWhile_append_dropWhile
      generalize t.takeWhile (!Token.isDelimiter ·) = run at parts
      generalize t.dropWhile (!Token.isDelimiter ·) = rest at parts
      subst parts
      obtain ⟨-, piece⟩ := stop_of_run (split.trans (List.append_assoc ..).symm)
      refine (goes_cut piece).then_ ?_
      cases run with
      | nil => exact mirrors_unexpected
      | cons c run =>
        split_ifs with empty
        · exact mirrors_unexpected
        · refine (mirrors_pure _ ?_).here
          rw [List.cons_append, List.length_cons, List.length_append]
          omega

theorem mirrors_name :
    Mirrors source (Near source s) (trimStart s).length (name source) (nameReader s) := by
  have trimmed := trimStart_trimStart s
  refine mirrors_skipBlanks enough ?_
  unfold nameReader
  generalize trimStart s = t at trimmed
  cases quote : Reader.eat? '"' t with
  | some u =>
    obtain rfl := trimmed.symm.trans (trimStart_of_eat? quote)
    refine Mirrors.here (.eaten enough rfl quote fun _ => .of_split fun front split => ?_)
    refine goes_position.then_ ((goes_cut (piece?_left split)).then_ ?_)
    have parts : u.takeWhile (· != '"') ++ u.dropWhile (· != '"') = u :=
      List.takeWhile_append_dropWhile
    cases left : u.dropWhile (· != '"') with
    | nil =>
      simp only [left]
      have none : '"' ∉ u := fun here => by simpa using List.dropWhile_eq_nil_iff.mp left _ here
      rw [if_neg none]
      exact mirrors_unexpected
    | cons c rest =>
      obtain rfl : c = '"' := by
        have stops := List.head?_dropWhile_not (· != '"') u
        simpa [left] using stops
      rw [left] at parts
      have here : '"' ∈ u := parts ▸ List.mem_append_right _ List.mem_cons_self
      simp only [left, here, if_true]
      generalize u.takeWhile (· != '"') = run at parts ⊢
      subst parts
      obtain ⟨stop, piece⟩ := stop_of_run (split.trans (List.append_assoc ..).symm)
      have behind : source.size - utf8Length ('"' :: rest) + 1 = source.size - utf8Length rest := by
        have one : utf8Length ('"' :: rest) = 1 + utf8Length rest := rfl
        have size : source.size = utf8Length (front ++ run) + utf8Length ('"' :: rest) := by
          rw [Source.size, split, ← List.append_assoc, utf8Length_append]
        rw [size, one]
        omega
      have passed : Goes source (run ++ ['"'] ++ rest) _ () rest := goes_moveTo (run ++ ['"'])
      rw [List.append_assoc] at passed
      rw [← stop, behind]
      refine passed.then_ ((goes_cut piece).then_ ((mirrors_pure _ ?_).here))
      rw [List.length_cons, List.length_append, List.length_cons]
      omega
  | none =>
    refine Mirrors.here (.passed enough quote ?_)
    rw [trimmed, if_neg Bool.false_ne_true]
    have run : Mirrors source (At source t) t.length
        (Scan.run source Char.utf8Size fun c => isAlphanumeric c || c == '_') _ :=
      mirrors_run enough fun _ _ => rfl
    split
    · simp [Reader.eat?, trimmed] at quote
    · dsimp only
      split_ifs at run ⊢
      · exact run.stop
      · exact run.seq fun fewer => mirrors_pure _ fewer

end Tokens

section Scalars

variable {rest : List Char} (shorter : rest.length < bound)

theorem toBlob_eq (token : Token) :
    token.toBlob =
      if !token.quoted && opensDigits token.text.toList then
        match Hex.decode? (token.text.toList.drop 2) with
        | some bytes => .ok (.blob bytes)
        | none => .error (.notBlob (String.ofList (token.text.toList.drop 2)))
      else .ok (.blob token.text.toUTF8.data.toList) := by
  unfold Token.toBlob opensDigits
  dsimp only
  split
  · rename_i x hex text
    have digits : (['0', 'x'].isPrefixOf ('0' :: x :: hex) ||
        ['0', 'X'].isPrefixOf ('0' :: x :: hex)) = (x == 'x' || x == 'X') := by
      simp [List.isPrefixOf, Bool.beq_comm]
    rewrite [text, digits]
    rfl
  · rename_i other
    have plain : (['0', 'x'].isPrefixOf token.text.toList ||
        ['0', 'X'].isPrefixOf token.text.toList) = false := by
      rw [Bool.eq_false_iff]
      intro opens
      simp only [Bool.or_eq_true, List.isPrefixOf_iff_prefix] at opens
      rcases opens with ⟨hex, text⟩ | ⟨hex, text⟩
      · exact other _ hex text.symm
      · exact other _ hex text.symm
    rw [plain, Bool.and_false]
    rfl

theorem piece?_digits {s : List Char} (opens : opensDigits s) :
    piece? s 2 (utf8Length s) = some (s.drop 2) := by
  unfold opensDigits at opens
  simp only [Bool.or_eq_true, List.isPrefixOf_iff_prefix] at opens
  rcases opens with ⟨hex, rfl⟩ | ⟨hex, rfl⟩
  · exact piece?_behind ['0', 'x'] hex
  · exact piece?_behind ['0', 'X'] hex

theorem even_ascii_iff {hex : List Char} :
    (utf8Length hex % 2 ≠ 0 || hex.any fun c => 128 ≤ c.toNat) = false ↔
      hex.length % 2 = 0 ∧ ∀ c ∈ hex, c.toNat < 128 := by
  rw [Bool.or_eq_false_iff, List.any_eq_false, decide_eq_false_iff_not, not_not]
  simp only [decide_eq_true_eq, not_le]
  exact and_congr_left fun ascii => by rw [utf8Length_of_ascii ascii]

include shorter

theorem mirrors_digits (hex : List Char) :
    Mirrors source (Near source rest) bound
      (do
        if utf8Length hex % 2 ≠ 0 || hex.any fun c => 128 ≤ c.toNat then
          throw (.refused (.notBlob (String.ofList hex)))
        else return .blob (← hexBytes (.notBlob (String.ofList hex)) hex))
      (made
        (match Hex.decode? hex with
          | some bytes => .ok (.blob bytes)
          | none => .error (.notBlob (String.ofList hex)))
        rest) := by
  split_ifs with off
  · cases read : Hex.decode? hex with
    | none => exact mirrors_refused _
    | some bytes =>
      rw [even_ascii_iff.mpr (ascii_of_decode? read)] at off
      contradiction
  · obtain ⟨even, ascii⟩ := even_ascii_iff.mp (Bool.eq_false_iff.mpr off)
    have bytes : Mirrors source (Near source rest) bound _ _ :=
      mirrors_hexBytes (.notBlob (String.ofList hex)) even ascii shorter
    generalize Hex.decode? hex = decoded at bytes ⊢
    cases decoded with
    | none => exact bytes.stop
    | some bytes' => exact bytes.seq fun _ => mirrors_pure _ shorter

theorem mirrors_blob (token : Token) :
    Mirrors source (Near source rest) bound (blob token) (made token.toBlob rest) := by
  rw [toBlob_eq]
  unfold blob
  split_ifs with digits
  · have opens := (Bool.and_eq_true_iff.mp digits).2
    exact .still (fun _ => goes_cut (piece?_digits opens)) (mirrors_digits shorter _)
  · exact mirrors_pure _ shorter

theorem mirrors_made (value : Except Fault Value) :
    Mirrors source (Near source rest) bound (check value) (made value rest) := by
  have checked : Mirrors source (Near source rest) bound _ _ := mirrors_check value shorter
  cases value <;> exact checked

theorem mirrors_scalar (k : Scalar) (token : Token) :
    Mirrors source (Near source rest) bound (scalar k token) (made (token.toValue k) rest) := by
  unfold scalar
  split
  · exact mirrors_blob shorter token
  · exact mirrors_made shorter (token.toValue _)

end Scalars

section Parts

variable {limit : Nat}
include enough

theorem mirrors_enclosed {item : Scan α} {itemReader : Reader α}
    (items : Tracks source limit item itemReader) (short : s.length ≤ limit)
    (within : limit ≤ source.rounds) (opening closing : Char) (ascii : opening.utf8Size = 1)
    (ascii' : closing.utf8Size = 1) (value : List α → Except Fault Value) :
    Mirrors source (Near source s) (trimStart s).length
      (do
        expect source opening
        let xs ← list source item closing
        check (value xs))
      (do
        let (xs, s) ← Reader.list itemReader closing (← Reader.expect opening s)
        made (value xs) s) := by
  have solid := length_trimStart_le s
  refine .opened enough ascii fun r fewer => ?_
  have listed := mirrors_list enough items closing ascii' (show r.length < limit by omega) within
  exact listed.here.bind fun xs w fewer' => mirrors_made (by omega) (value xs)

theorem tracks_entry {key value : Scan Value} {keyReader valueReader : Reader Value}
    (keys : Tracks source limit key keyReader) (values : Tracks source limit value valueReader) :
    Tracks source limit (entry source key value) (entryReader keyReader valueReader) := by
  intro s short
  have solid := length_trimStart_le s
  refine (keys s short).bind fun k t fewer => ?_
  refine .expected enough rfl fun u fewer' => ?_
  exact (values u (by omega)).loose.here.bind fun v w fewer'' => mirrors_pure [k, v] (by omega)

variable {value : Ty → Scan Value}
  (values : ∀ t, Tracks source limit (value t) (Literal.reader source.input t))
include values

theorem tracks_field (fields : List (String × Ty)) :
    Tracks source limit (field source fields value)
      (fieldReader (fieldReaders source.input fields)) := by
  intro s short
  have solid := length_trimStart_le s
  unfold field fieldReader
  refine (mirrors_name enough).bind fun name t fewer => ?_
  simp only [lookup_fieldReaders]
  cases fields.lookup name with
  | none => exact mirrors_refused _
  | some type =>
    refine .expected enough rfl fun u fewer' => ?_
    refine (values type u (by omega)).loose.here.bind fun v w fewer'' => ?_
    exact mirrors_pure [Value.text name, v] (show w.length < _ by omega)

variable (elements : List Ty) (short : s.length < limit)
include short

theorem mirrors_slots {rounds : Nat} (within : s.length < rounds) (index : Nat) :
    Mirrors source (Near source s) s.length (slots source elements value rounds index)
      (slotsReader source.input elements.length (elements.drop index) s) := by
  induction rounds generalizing s index with
  | zero => omega
  | succ rounds ih =>
    rw [slots]
    cases element : elements[index]? with
    | none =>
      rw [List.drop_eq_nil_of_le (List.getElem?_eq_none_iff.mp element), slotsReader]
      exact mirrors_refused _
    | some type =>
      obtain ⟨inside, rfl⟩ := List.getElem?_eq_some_iff.mp element
      rw [List.drop_eq_getElem_cons inside, slotsReader]
      refine (values _ s short).loose.bind fun v t fewer => ?_
      have solid := length_trimStart_le t
      dsimp only
      cases closed : Reader.eat? ')' t with
      | some u => exact .eaten enough rfl closed fun fewer' => (mirrors_pure [v] (by omega)).here
      | none =>
        refine .passed enough closed (.trimmed (.expected enough rfl fun u fewer' => ?_))
        have others : Mirrors source (Near source u) u.length _ _ :=
          ih (by omega) (by omega) (index + 1)
        exact others.here.bind fun vs w fewer'' => mirrors_pure (v :: vs) (by omega)

theorem mirrors_tuple (within : limit ≤ source.rounds) :
    Mirrors source (Near source s) s.length (tuple source elements value)
      (match Reader.eat? ')' s with
        | some s => .ok ([], s)
        | none => slotsReader source.input elements.length elements s) := by
  have solid := length_trimStart_le s
  unfold tuple
  cases closed : Reader.eat? ')' s with
  | some t => exact .eaten enough rfl closed fun fewer => (mirrors_pure [] (by omega)).here
  | none =>
    refine .passed enough closed (.trimmed ?_)
    exact mirrors_slots enough values elements short (short.trans_le within) 0

end Parts

include enough in
/-- Every literal takes up some of the text, so literals go no deeper than it is long. -/
theorem tracks_reader {limit depth : Nat} (t : Ty) (deep : limit ≤ depth)
    (within : limit ≤ source.rounds) :
    Tracks source limit (reader source depth t) (Literal.reader source.input t) := by
  -- The type within a type is smaller, but it is the text that bounds the rounds of the loops.
  induction limit generalizing depth t with
  | zero => exact nofun
  | succ limit ih =>
    obtain ⟨depth, rfl⟩ := Nat.exists_eq_add_one_of_ne_zero (by omega : depth ≠ 0)
    intro s short
    have solid := length_trimStart_le s
    have values (t : Ty) : Tracks source limit (reader source depth t)
        (Literal.reader source.input t) := ih t (by omega) (by omega)
    have enclosed {β : Type} {item : Scan β} {itemReader : Reader β}
        (items : Tracks source limit item itemReader) :=
      mirrors_enclosed enough items (s := s) (by omega) (by omega)
    rw [Scanning.reader.eq_def, Literal.reader.eq_def]
    refine mirrors_parsing (mirrors_null enough (fun rest null fewer => ?_) fun null => ?_)
    · rw [null]
      exact (mirrors_pure Value.null fewer).here
    · rw [null, if_neg Bool.false_ne_true]
      refine .trimmed ?_
      cases t with
      | scalar k =>
        exact (mirrors_token enough).bind fun token u fewer => mirrors_scalar fewer k token
      | list u => exact enclosed (values u) '[' ']' rfl rfl (Ty.create (.list u))
      | set u => exact enclosed (values u) '{' '}' rfl rfl (Ty.create (.set u))
      | map k v =>
        have entries := tracks_entry enough (values k) (values v)
        exact enclosed entries '{' '}' rfl rfl fun xs => Ty.create (.map k v) xs.flatten
      | tuple ts =>
        refine .opened enough rfl fun r fewer => ?_
        have elements := mirrors_tuple enough values ts (show r.length < limit by omega) (by omega)
        have built : Mirrors source (At source r) (trimStart s).length _ _ :=
          elements.here.bind (f := fun xs => check (Ty.create (.tuple ts) xs))
            (k := fun read => made (Ty.create (.tuple ts) read.1) read.2)
            fun xs w fewer' => mirrors_made (by omega) _
        cases closed : Reader.eat? ')' r <;> rw [closed] at built <;> exact built
      | user label fields =>
        have fields' := tracks_field enough values fields
        exact enclosed fields' '{' '}' rfl rfl fun xs => Ty.create (.user label fields) xs.flatten

end Literal.Scanning

end Cql
