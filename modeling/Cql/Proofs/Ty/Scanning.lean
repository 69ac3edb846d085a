import Cql.Schema.Table
import Cql.Ty.Scanning
import Cql.Proofs.Scan
import Cql.Proofs.Ty.Asking

namespace Cql

namespace Ty.Scanning

open Scan
open Cursor (At Near)

variable {source : Source} {bound : Nat} {s : List Char}

section Names

theorem utf8Size_of_isNameChar (c : Char) (part : isNameChar c) : 1 = c.utf8Size := by
  unfold isNameChar at part
  rw [Bool.or_eq_true, beq_iff_eq] at part
  rcases part with letter | rfl
  · exact (utf8Size_of_ascii (toNat_of_isAlphanum letter)).symm
  · rfl

variable (enough : source.chars.length < source.rounds)
include enough

theorem mirrors_name :
    Mirrors source (Near source s) (trimStart s).length (name source) (nameReader s) := by
  refine mirrors_skipBlanks enough (goes_peek.then_ ?_)
  unfold nameReader
  generalize trimStart s = t
  split_ifs with first
  · obtain ⟨rest, rfl⟩ := List.head?_eq_some_iff.mp first
    refine .of_split fun front split => ?_
    have within := lt_rounds_of_split enough split
    rw [List.length_cons] at within ⊢
    refine (goes_pass rfl).then_ ?_
    refine (mirrors_quoted rfl (by omega)).bind fun name rest shorter => ?_
    exact mirrors_pure (String.ofList name) (by omega)
  · have run := mirrors_run (s := t) enough utf8Size_of_isNameChar
    split
    · exact absurd rfl first
    · split_ifs at run ⊢
      · exact run.stop
      · exact run.seq fun shorter => mirrors_pure _ shorter

theorem mirrors_label (first : String) (short : s.length < bound) :
    Mirrors source (Near source s) bound (label source first) (Asking.label first s) := by
  have solid := length_trimStart_le s
  unfold label Asking.label
  cases point : Reader.eat? '.' s with
  | some t =>
    refine .eaten enough rfl point fun shorter => ?_
    have solid' := length_trimStart_le t
    refine (mirrors_name enough).here.bind fun inner rest shorter' => ?_
    exact mirrors_pure _ (by omega)
  | none => exact .passed enough point (mirrors_pure _ short).trimmed

omit enough in
theorem namedReader_eq (resolve : Resolver) (first : String) :
    namedReader resolve first s =
      match Scalar.ofName? first with
      | some known => .ok (.scalar known, s)
      | none => Asking.label first s >>= fun (label, s) =>
        match resolve label.keyspace label.name with
        | some t => .ok (t, s)
        | none => .error (.refused (.unknownType label.text)) := by
  unfold namedReader Asking.label
  cases Reader.eat? '.' s with
  | none => rfl
  | some t =>
    dsimp only
    cases nameReader t <;> rfl

theorem mirrors_named (resolve : Resolver) (first : String) (short : s.length < bound) :
    Mirrors source (Near source s) bound (named source resolve first)
      (namedReader resolve first s) := by
  rw [namedReader_eq]
  unfold named
  cases Scalar.ofName? first with
  | some known => exact mirrors_pure _ short
  | none =>
    refine (mirrors_label enough first short).bind fun label t shorter => ?_
    dsimp only
    cases resolve label.keyspace label.name with
    | some t => exact mirrors_pure t shorter
    | none => exact mirrors_refused _

end Names

section Readers

variable (enough : source.chars.length < source.rounds) {limit : Nat}
include enough

section Parts

variable {inner : Scan Ty} {reader : Reader Ty} (step : Tracks source limit inner reader)
include step

theorem tracks_field : Tracks source limit (field source inner) (fieldReader reader) := by
  intro s short
  have solid := length_trimStart_le s
  refine (mirrors_name enough).bind fun name t fewer => ?_
  refine .expected enough rfl fun u fewer' => ?_
  refine (step u (by omega)).loose.here.bind fun x v fewer'' => ?_
  exact mirrors_pure (name, x) (by omega)

variable (short : s.length < limit)
include short

theorem mirrors_around (f : Ty → Ty) :
    Mirrors source (Near source s) s.length
      (do
        expect source '<'
        let t ← inner
        expect source '>'
        return f t)
      (do
        let (t, s) ← reader (← Reader.expect '<' s)
        return (f t, ← Reader.expect '>' s)) := by
  refine .expected enough rfl fun t fewer => ?_
  refine (step t (by omega)).loose.here.bind fun x u fewer' => ?_
  exact .expected enough rfl fun v fewer'' => (mirrors_pure (f x) (by omega)).here

theorem mirrors_pair :
    Mirrors source (Near source s) s.length
      (do
        expect source '<'
        let k ← inner
        expect source ','
        let v ← inner
        expect source '>'
        return Ty.map k v)
      (do
        let (k, s) ← reader (← Reader.expect '<' s)
        let (v, s) ← reader (← Reader.expect ',' s)
        return (Ty.map k v, ← Reader.expect '>' s)) := by
  refine .expected enough rfl fun t fewer => ?_
  refine (step t (by omega)).loose.here.bind fun k u fewer' => ?_
  refine .expected enough rfl fun w less => ?_
  refine (step w (by omega)).loose.here.bind fun v r less' => ?_
  exact .expected enough rfl fun q less'' => (mirrors_pure (Ty.map k v) (by omega)).here

end Parts

theorem tracks_reader (resolve : Resolver) {depth depth' : Nat} (deep : limit ≤ depth)
    (deep' : limit ≤ depth') (within : limit ≤ source.rounds) :
    Tracks source limit (reader source resolve depth) (Ty.reader resolve depth') := by
  -- What may be left of the text bounds the depth and the rounds of every loop alike.
  induction limit generalizing depth depth' with
  | zero => exact nofun
  | succ limit ih =>
    obtain ⟨depth, rfl⟩ := Nat.exists_eq_add_one_of_ne_zero (by omega : depth ≠ 0)
    obtain ⟨depth', rfl⟩ : ∃ n, depth' = n + 1 := ⟨depth' - 1, by omega⟩
    intro s short
    have solid := length_trimStart_le s
    have step : Tracks source limit (reader source resolve depth) (Ty.reader resolve depth') :=
      ih (by omega) (by omega) (by omega)
    rw [reader, Ty.reader]
    refine mirrors_parsing ((mirrors_name enough).bind fun first t fewer => ?_)
    have short' : t.length < limit := by omega
    dsimp only
    cases Builder.ofName? first with
    | some b =>
      cases b with
      | list => exact (mirrors_around enough step short' .list).mono (fun _ => id) fewer.le
      | set => exact (mirrors_around enough step short' .set).mono (fun _ => id) fewer.le
      | frozen => exact (mirrors_around enough step short' id).mono (fun _ => id) fewer.le
      | map => exact (mirrors_pair enough step short').mono (fun _ => id) fewer.le
      | tuple =>
        refine .expected enough rfl fun u less => ?_
        have types := mirrors_list enough step '>' rfl (less.trans short') (by omega)
        exact types.here.bind fun ts v less' => mirrors_pure (Ty.tuple ts) (by omega)
    | none =>
      have named := mirrors_named enough resolve first fewer
      unfold opensFields
      cases sameName first "userType" with
      | false => exact named
      | true =>
        simp only [if_true]
        cases opened : Reader.eat? '<' t with
        | none => exact .passed enough opened named.trimmed
        | some u =>
          refine .eaten enough rfl opened fun less => ?_
          have solid' := length_trimStart_le t
          have fields := mirrors_list enough (tracks_field enough step) '>' rfl
            (show u.length < limit by omega) (by omega)
          exact fields.here.bind fun fs v less' => mirrors_pure (Ty.user none fs) (by omega)

end Readers

theorem goes_isFrozenText {rest : List Char} (input : String) :
    Goes source rest (Scanning.isFrozenText input) (Cql.isFrozenText input) rest := by
  have keyword (word : List Char) := sameName_ofList_iff word "frozen" rfl
  unfold Scanning.isFrozenText Cql.isFrozenText
  simp only [List.splitAt_eq]
  generalize trimStart input.toList = t
  refine goes_cut?.bind ?_
  by_cases word : (t.take 6).map Char.toLower = "frozen".toList
  · have size : utf8Length (t.take 6) = 6 := utf8Length_of_toLower word (by decide)
    have front : piece? t 0 6 = some (t.take 6) :=
      piece?_front.mpr ⟨t.drop 6, (List.take_append_drop 6 t).symm, size⟩
    have behind := piece?_behind (t.take 6) (t.drop 6)
    rw [List.take_append_drop, size] at behind
    simp only [front, (keyword _).mpr word, word, if_true, beq_self_eq_true, Bool.true_and]
    exact (goes_cut behind).bind (goes_pure _)
  · have other : ((t.take 6).map Char.toLower == "frozen".toList) = false := by simpa using word
    rw [other, Bool.false_and]
    cases front : piece? t 0 6 with
    | none => exact goes_pure false
    | some piece =>
      have different : ¬ sameName (String.ofList piece) "frozen" := by
        intro same
        have letters := (keyword piece).mp same
        obtain ⟨behind, split, -⟩ := piece?_front.mp front
        have six : piece.length = 6 := by simpa using congrArg List.length letters
        rw [split, List.take_left' six] at word
        exact word letters
      simp only [different]
      exact goes_pure false

end Ty.Scanning

end Cql
