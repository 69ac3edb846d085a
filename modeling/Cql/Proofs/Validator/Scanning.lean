import Cql.Validator.Scanning
import Cql.Proofs.Scan

namespace Cql

namespace Validator.Scanning

open Scan
open Cursor (At Near)

variable {α β : Type} {source : Source} {bound limit : Nat} {s : List Char}
  (enough : source.chars.length < source.rounds)

section Names

theorem toNat_of_isWordChar {c : Char} (part : isWordChar c) : c.toNat < 128 := by
  unfold isWordChar at part
  simp only [Bool.or_eq_true, beq_iff_eq] at part
  rcases part with ((letter | rfl) | rfl) | rfl
  · exact toNat_of_isAlphanum letter
  · decide
  · decide
  · decide

theorem ascii_of_wordReader {word : String} {rest : List Char}
    (read : wordReader s = .ok (word, rest)) : ∀ c ∈ word.toList, c.toNat < 128 := by
  unfold wordReader at read
  dsimp only at read
  split_ifs at read
  obtain ⟨rfl, -⟩ := Prod.mk.inj (Except.ok.inj read)
  rw [String.toList_ofList]
  exact fun c member => toNat_of_isWordChar (List.mem_takeWhile_imp member)

include enough

theorem mirrors_word :
    Mirrors source (Near source s) (trimStart s).length (word source) (wordReader s) := by
  refine mirrors_skipBlanks enough ?_
  unfold wordReader
  have run : Mirrors source (At source (trimStart s)) (trimStart s).length
      (Scan.run source (fun _ => 1) isWordChar) _ :=
    mirrors_run enough fun _ part => (utf8Size_of_ascii (toNat_of_isWordChar part)).symm
  dsimp only
  split_ifs at run ⊢
  · exact run.stop
  · exact run.seq fun fewer => mirrors_pure _ fewer

theorem mirrors_class :
    Mirrors source (Near source s) (trimStart s).length (nextClass source) (classReader s) :=
  mirrors_parsing <| (mirrors_word enough).bind fun name _ fewer =>
    mirrors_pure (stripPackage name) fewer

omit enough in
theorem mirrors_decodeName {hex : String} {rest : List Char}
    (ascii : ∀ c ∈ hex.toList, c.toNat < 128) (fewer : rest.length < bound) :
    Mirrors source (Near source rest) bound
      (do
        if utf8Length hex.toList % 2 ≠ 0 then throw (.refused (.notHexName hex))
        else
          let bytes ← hexBytes (.notHexName hex) hex.toList
          match String.fromUTF8? ⟨bytes.toArray⟩ with
          | some name => return name
          | none => throw (.refused (.notHexName hex)))
      (match decodeName? hex with
        | some name => .ok (name, rest)
        | none => .error (.refused (.notHexName hex))) := by
  unfold decodeName?
  rw [utf8Length_of_ascii ascii]
  split_ifs with odd
  · cases decoded : Hex.decode? hex.toList with
    | none => exact mirrors_refused _
    | some bytes => exact absurd (ascii_of_decode? decoded).1 odd
  · have pairs : Mirrors source (Near source rest) bound _ _ :=
      mirrors_hexBytes (.notHexName hex) (not_not.mp odd) ascii fewer
    generalize Hex.decode? hex.toList = decoded at pairs ⊢
    cases decoded with
    | none => exact pairs.stop
    | some bytes =>
      refine pairs.seq fun _ => ?_
      dsimp only [Option.bind_some]
      cases String.fromUTF8? ⟨bytes.toArray⟩ with
      | none => exact mirrors_refused _
      | some name => exact mirrors_pure name fewer

theorem mirrors_hexName :
    Mirrors source (Near source s) (trimStart s).length (hexName source) (hexNameReader s) := by
  have read := mirrors_word enough (s := s)
  unfold hexName hexNameReader
  cases word : wordReader s with
  | error stop =>
    rw [word] at read
    exact read.stop
  | ok read' =>
    obtain ⟨hex, rest⟩ := read'
    rw [word] at read
    exact read.seq fun fewer => mirrors_decodeName (ascii_of_wordReader word) fewer

end Names

section Parts

def furtherReader (item : Reader α) (fuel : List Char → Nat) : Reader (List α) := fun s =>
  match Reader.eat? ')' s with
  | some t => .ok ([], t)
  | none => do
    let t ← Reader.expect ',' s
    Reader.items item ')' (fuel t) t

theorem items_succ (item : Reader α) (fuel : Nat) :
    Reader.items item ')' (fuel + 1) s = do
      let (x, s) ← item s
      let (xs, s) ← furtherReader item (fun _ => fuel) s
      return (x :: xs, s) := by
  rw [Reader.items]
  cases item s with
  | error stop => rfl
  | ok read =>
    obtain ⟨x, t⟩ := read
    unfold furtherReader
    dsimp only [bind, Except.bind]
    cases Reader.eat? ')' t with
    | some u => rfl
    | none => cases Reader.expect ',' t <;> rfl

theorem userReader_eq (inner : Reader Ty) :
    userReader inner s = do
      let (keyspace, s) ← wordReader s
      let (name, s) ← hexNameReader (← Reader.expect ',' s)
      let (fields, s) ← furtherReader (fieldReader inner) (·.length + 1) s
      return (.user (some ⟨some keyspace, name⟩) fields, s) := by
  unfold userReader furtherReader
  congr 1
  funext ⟨keyspace, t⟩
  dsimp only
  congr 1
  funext u
  congr 1
  funext ⟨name, v⟩
  dsimp only
  cases Reader.eat? ')' v with
  | some w => rfl
  | none => exact (bind_assoc ..).symm

include enough

theorem mirrors_further {item : Scan α} {reader : Reader α}
    (step : Tracks source limit item reader) (short : s.length < limit) {rounds : Nat}
    (within : s.length < rounds) {fuel : List Char → Nat}
    (within' : ∀ t, t.length < s.length → t.length < fuel t) {f : List α → Scan β}
    {k : List α × List Char → Except Stop (β × List Char)}
    (next : ∀ xs rest, rest.length < s.length →
      Mirrors source (At source rest) bound (f xs) (k (xs, rest))) :
    Mirrors source (Near source s) bound
      (do
        let xs ← further source item rounds
        expect source ')'
        f xs)
      (furtherReader reader fuel s >>= k) := by
  -- The reader asks for the parenthesis first and the run for the comma: only one can come next.
  induction rounds generalizing s fuel f k with
  | zero => omega
  | succ rounds ih =>
    have solid := length_trimStart_le s
    rw [further, bind_assoc]
    cases comma : Reader.eat? ',' s with
    | some t =>
      have more : furtherReader reader fuel s = Reader.items reader ')' (fuel t) t := by
        unfold furtherReader Reader.expect
        simp only [Reader.eat?, trimStart_of_eat? comma]
        rfl
      refine .eaten enough rfl comma fun fewer => ?_
      have many := within' t (by omega)
      obtain ⟨fuel', same⟩ : ∃ n, fuel t = n + 1 := ⟨fuel t - 1, by omega⟩
      rw [more, same, items_succ]
      simp only [if_true, bind_assoc]
      refine (step t (by omega)).loose.here.bind fun x u fewer' => ?_
      simp only [pure_bind]
      exact ih (by omega) (by omega) (fun v less => by omega) (f := fun xs => f (x :: xs))
        (k := fun (xs, r) => k (x :: xs, r)) fun xs rest less => next _ _ (by omega)
    | none =>
      have last : furtherReader reader fuel s >>= k =
          Reader.expect ')' s >>= fun t => k ([], t) := by
        unfold furtherReader Reader.expect
        rw [comma]
        cases Reader.eat? ')' s <;> rfl
      refine .passed enough comma ?_
      rw [last, if_neg Bool.false_ne_true, pure_bind]
      exact .trimmed (.expected enough rfl fun t fewer => next [] t fewer)

variable {inner : Scan Ty} {reader : Reader Ty} (step : Tracks source limit inner reader)
include step

theorem tracks_field : Tracks source limit (field source inner) (fieldReader reader) := by
  intro s short
  have solid := length_trimStart_le s
  refine (mirrors_hexName enough).bind fun name t fewer => ?_
  refine .expected enough rfl fun u fewer' => ?_
  refine (step u (by omega)).loose.here.bind fun x v fewer'' => ?_
  exact mirrors_pure (name, x) (by omega)

variable (short : s.length < limit)
include short

theorem mirrors_closed (f : Ty → Ty) :
    Mirrors source (Near source s) s.length
      (do
        let t ← inner
        expect source ')'
        return f t)
      (do
        let (t, s) ← reader s
        return (f t, ← Reader.expect ')' s)) := by
  refine (step s short).loose.bind fun t u fewer => ?_
  exact .expected enough rfl fun v fewer' => (mirrors_pure (f t) (by omega)).here

theorem mirrors_closedPair :
    Mirrors source (Near source s) s.length
      (do
        let k ← inner
        expect source ','
        let v ← inner
        expect source ')'
        return Ty.map k v)
      (do
        let (k, s) ← reader s
        let (v, s) ← reader (← Reader.expect ',' s)
        return (Ty.map k v, ← Reader.expect ')' s)) := by
  refine (step s short).loose.bind fun k u fewer => ?_
  refine .expected enough rfl fun w fewer' => ?_
  refine (step w (by omega)).loose.here.bind fun v r fewer'' => ?_
  exact .expected enough rfl fun q _ => (mirrors_pure (Ty.map k v) (by omega)).here

variable (within : limit ≤ source.rounds)
include within

theorem mirrors_elements :
    Mirrors source (Near source s) s.length
      (do
        let t ← inner
        let ts ← further source inner source.rounds
        expect source ')'
        return Ty.tuple (t :: ts))
      (do
        let (ts, s) ← Reader.items reader ')' (s.length + 1) s
        return (Ty.tuple ts, s)) := by
  rw [items_succ, bind_assoc]
  refine (step s short).loose.bind fun t u fewer => ?_
  dsimp only
  rw [bind_assoc]
  have many : ∀ v : List Char, v.length < u.length → v.length < s.length := by omega
  refine mirrors_further enough step (show u.length < limit by omega) (by omega) many
    fun ts w _ => ?_
  exact (mirrors_pure (Ty.tuple (t :: ts)) (by omega)).here

theorem mirrors_user :
    Mirrors source (Near source s) s.length
      (do
        let t ← user source inner
        expect source ')'
        return t)
      (userReader reader s) := by
  have solid := length_trimStart_le s
  rw [userReader_eq]
  unfold user
  simp only [bind_assoc, pure_bind]
  refine (mirrors_word enough).bind fun keyspace t fewer => ?_
  refine .expected enough rfl fun u fewer' => ?_
  refine (mirrors_hexName enough).loose.here.bind fun name v fewer'' => ?_
  refine mirrors_further enough (tracks_field enough step) (show v.length < limit by omega)
    (by omega) (fun w _ => Nat.lt_succ_self w.length) fun fields w less => ?_
  exact (mirrors_pure (Ty.user (some ⟨some keyspace, name⟩) fields) (by omega)).here

theorem mirrors_body (className : String) (fewer : s.length < bound) :
    Mirrors source (Near source s) bound (body source inner className)
      (bodyReader reader className s) := by
  unfold body bodyReader
  cases scalars.lookup className with
  | some k => exact mirrors_pure _ fewer
  | none =>
    refine .expected enough rfl fun t fewer' => ?_
    have short' : t.length < limit := by omega
    have less : t.length ≤ bound := by omega
    have closed (f : Ty → Ty) := (mirrors_closed enough step short' f).here.mono (fun _ => id) less
    have pair := (mirrors_closedPair enough step short').here.mono (fun _ => id) less
    have elements := (mirrors_elements enough step short' within).here.mono (fun _ => id) less
    have user := (mirrors_user enough step short' within).here.mono (fun _ => id) less
    split
    · simpa only [parameters, bind_assoc, pure_bind] using closed .list
    · simpa only [parameters, bind_assoc, pure_bind] using closed .set
    · simpa only [parameters, bind_assoc, pure_bind] using pair
    · exact closed id
    · exact closed id
    · simpa only [parameters, bind_assoc, pure_bind] using elements
    · exact user
    · unfold parameters
      simp only
      exact (mirrors_refused (.unsupportedClass className)).here

end Parts

section Readers

include enough

theorem tracks_tyReader {depth depth' : Nat} (deep : limit ≤ depth) (deep' : limit ≤ depth')
    (within : limit ≤ source.rounds) :
    Tracks source limit (Scanning.tyReader source depth) (Validator.tyReader depth') := by
  induction limit generalizing depth depth' with
  | zero => exact nofun
  | succ limit ih =>
    obtain ⟨depth, rfl⟩ := Nat.exists_eq_add_one_of_ne_zero (by omega : depth ≠ 0)
    obtain ⟨depth', rfl⟩ : ∃ n, depth' = n + 1 := ⟨depth' - 1, by omega⟩
    intro s short
    have solid := length_trimStart_le s
    have step : Tracks source limit (Scanning.tyReader source depth)
        (Validator.tyReader depth') := ih (by omega) (by omega) (by omega)
    rw [Scanning.tyReader, Validator.tyReader]
    refine mirrors_parsing ((mirrors_class enough).bind fun className t fewer => ?_)
    exact mirrors_body enough step (by omega) (by omega) className fewer

theorem mirrors_inside {f : String → Scan α} {k : String × List Char → Except Stop (α × List Char)}
    (next : ∀ className rest, rest.length + 1 < s.length →
      Mirrors source (Near source rest) bound (f className) (k (className, rest))) :
    Mirrors source (Near source s) bound
      (do
        expect source '('
        f (← nextClass source))
      (do
        let read ← classReader (← Reader.expect '(' s)
        k read) := by
  refine .expected enough rfl fun t fewer => ?_
  have solid := length_trimStart_le t
  exact (mirrors_class enough).here.bind fun className u fewer' => next className u (by omega)

variable {f : Bool × Bool × String → Scan α} {className : String} {rounds : Nat}
  (within : s.length < rounds)
include within

theorem mirrors_unwrapFrozen {reversed : Bool} (other : reversed ∨ className ≠ "ReversedType")
    {k : Bool × String × List Char → Except Stop (α × List Char)}
    (next : ∀ frozen className rest, rest.length ≤ s.length →
      Mirrors source (Near source rest) bound (f (reversed, frozen, className))
        (k (frozen, className, rest))) :
    Mirrors source (Near source s) bound
      (Scanning.unwrap source reversed false className rounds >>= f)
      (Validator.unwrap "FrozenType" className s >>= k) := by
  obtain ⟨rounds, rfl⟩ := Nat.exists_eq_add_one_of_ne_zero (by omega : rounds ≠ 0)
  rw [Scanning.unwrap, if_neg (by rcases other with rfl | other <;> simp [*])]
  unfold Validator.unwrap
  simp only [Bool.not_false, Bool.and_true, decide_eq_true_eq]
  split_ifs with wrapped
  · simp only [bind_assoc, pure_bind]
    refine mirrors_inside enough fun inside rest fewer => ?_
    obtain ⟨rounds, rfl⟩ := Nat.exists_eq_add_one_of_ne_zero (by omega : rounds ≠ 0)
    have done : Scanning.unwrap source reversed true inside (rounds + 1) =
        pure (reversed, true, inside) := by simp [Scanning.unwrap]
    rw [done, pure_bind]
    exact next true inside rest (by omega)
  · exact next false className s le_rfl

theorem mirrors_unwrap {k : Bool → Bool → String → List Char → Except Stop (α × List Char)}
    (next : ∀ reversed frozen className rest, rest.length ≤ s.length →
      Mirrors source (Near source rest) bound (f (reversed, frozen, className))
        (k reversed frozen className rest)) :
    Mirrors source (Near source s) bound
      (Scanning.unwrap source false false className rounds >>= f)
      (do
        let (reversed, className, r) ← Validator.unwrap "ReversedType" className s
        let (frozen, className, r) ← Validator.unwrap "FrozenType" className r
        k reversed frozen className r) := by
  by_cases wrapped : className = "ReversedType"
  · obtain ⟨rounds, rfl⟩ := Nat.exists_eq_add_one_of_ne_zero (by omega : rounds ≠ 0)
    rw [Scanning.unwrap, if_pos (by simp [wrapped]), Validator.unwrap, if_pos wrapped]
    simp only [bind_assoc, pure_bind]
    refine mirrors_inside enough fun inside rest fewer => ?_
    exact mirrors_unwrapFrozen enough (by omega) (.inl rfl) fun frozen className rest' fewer' =>
      next true frozen className rest' (by omega)
  · rw [Validator.unwrap, if_neg wrapped, pure_bind]
    exact mirrors_unwrapFrozen enough within (.inr wrapped) (next false)

omit within in
theorem mirrors_close {wrapped : Bool} {others : Nat} {f : Unit → Scan α}
    {k : List Char → Except Stop (α × List Char)}
    (next : ∀ t, t.length ≤ s.length →
      Mirrors source (Near source t) bound (Scanning.close source others >>= f) (k t)) :
    Mirrors source (Near source s) bound
      (Scanning.close source (others + wrapped.toNat) >>= f)
      (Validator.close wrapped s >>= k) := by
  cases wrapped with
  | false => exact next s le_rfl
  | true =>
    rw [Bool.toNat_true, Scanning.close, bind_assoc]
    exact .expected enough rfl fun t fewer => (next t fewer.le).here

omit within in
theorem tracks_reader (within : limit ≤ source.rounds) :
    Tracks source limit (Scanning.reader source) Validator.reader := by
  intro s short
  have solid := length_trimStart_le s
  refine (mirrors_class enough).bind fun className r fewer => ?_
  refine mirrors_unwrap enough (show r.length < source.rounds by omega)
    (k := fun reversed frozen inside r => do
      let (ty, r) ← bodyReader (Validator.tyReader s.length) inside r
      let r ← Validator.close frozen r
      let r ← Validator.close reversed r
      return ((⟨ty, reversed, frozen⟩ : Validator), r))
    fun reversed frozen inside t fewer' => ?_
  have step : Tracks source s.length (Scanning.tyReader source source.rounds)
      (Validator.tyReader s.length) :=
    tracks_tyReader enough (by omega) le_rfl (by omega)
  have body : Mirrors source (Near source t) (trimStart s).length _ _ :=
    mirrors_body enough step (by omega) (by omega) inside (by omega)
  refine body.bind fun ty u fewer'' => ?_
  refine mirrors_close enough fun v less => ?_
  rw [← Nat.zero_add reversed.toNat]
  refine mirrors_close enough fun w less' => ?_
  exact mirrors_pure (⟨ty, reversed, frozen⟩ : Validator) (by omega)

end Readers

end Validator.Scanning

end Cql
