import Cql.Name
import Cql.Scan
import Cql.Proofs.Hex
import Cql.Proofs.Phrase

/-!
Runs over a text by positions, against readers of what is left of the text. A run that mirrors a
reader comes to what the reader gives, keeps its position between characters and never lets it go
back, cuts out only pieces that are there, and is over after its rounds.
-/

namespace Cql

/-- The position is between two characters of the text, or at one of its ends. -/
def OnBoundary (s : List Char) (p : Nat) : Prop := String.Pos.Raw.IsValid (String.ofList s) ⟨p⟩

section Pieces

variable {s front rest piece : List Char} {c : Char} {n lo hi : Nat}

theorem utf8ByteSize_ofList (s : List Char) : (String.ofList s).utf8ByteSize = utf8Length s := by
  induction s with
  | nil => rfl
  | cons c s ih =>
    rw [String.ofList_cons, String.utf8ByteSize_append, String.utf8ByteSize_singleton, ih]
    rfl

theorem utf8Length_pos (nonempty : s ≠ []) : 0 < utf8Length s := by
  obtain ⟨c, s, rfl⟩ := List.exists_cons_of_ne_nil nonempty
  exact Nat.add_pos_left c.utf8Size_pos _

theorem utf8Length_lt {front' rest' : List Char} (same : front ++ rest = front' ++ rest')
    (shorter : rest.length < rest'.length) : utf8Length rest < utf8Length rest' := by
  rcases List.append_eq_append_iff.mp same with ⟨m, rfl, rfl⟩ | ⟨m, rfl, rfl⟩
  · rw [List.length_append] at shorter
    omega
  · have nonempty : m ≠ [] := by
      rintro rfl
      simp at shorter
    have more := utf8Length_pos nonempty
    rw [utf8Length_append]
    omega

theorem onBoundary_iff :
    OnBoundary s n ↔ ∃ front rest, s = front ++ rest ∧ utf8Length front = n := by
  unfold OnBoundary
  rw [String.Pos.Raw.isValid_ofList]
  simp only [utf8ByteSize_ofList]
  constructor
  · rintro ⟨i, same⟩
    exact ⟨s.take i, s.drop i, (List.take_append_drop i s).symm, same.symm⟩
  · rintro ⟨front, rest, rfl, rfl⟩
    exact ⟨front.length, by rw [List.take_left]⟩

theorem dropBytes?_cons (fits : c.utf8Size ≤ n) :
    dropBytes? n (c :: s) = dropBytes? (n - c.utf8Size) s := by
  have wide := c.utf8Size_pos
  obtain ⟨n, rfl⟩ := Nat.exists_eq_add_one_of_ne_zero (by omega : n ≠ 0)
  exact if_pos fits

theorem takeBytes?_cons (fits : c.utf8Size ≤ n) :
    takeBytes? n (c :: s) = (takeBytes? (n - c.utf8Size) s).map (c :: ·) := by
  have wide := c.utf8Size_pos
  obtain ⟨n, rfl⟩ := Nat.exists_eq_add_one_of_ne_zero (by omega : n ≠ 0)
  exact if_pos fits

theorem dropBytes?_eq_some_iff :
    dropBytes? n s = some rest ↔ ∃ front, s = front ++ rest ∧ utf8Length front = n := by
  constructor
  · intro h
    fun_induction dropBytes? n s with
    | case1 s =>
      obtain rfl := Option.some.inj h
      exact ⟨[], rfl, rfl⟩
    | case2 n => contradiction
    | case3 n c s fits ih =>
      obtain ⟨front, rfl, size⟩ := ih h
      exact ⟨c :: front, rfl, by rw [utf8Length, size]; omega⟩
    | case4 n c s wide => contradiction
  · rintro ⟨front, rfl, rfl⟩
    induction front with
    | nil => exact dropBytes?.eq_1 rest
    | cons c front ih =>
      rw [List.cons_append, utf8Length, dropBytes?_cons (Nat.le_add_right _ _),
        Nat.add_sub_cancel_left, ih]

theorem takeBytes?_eq_some_iff :
    takeBytes? n s = some front ↔ ∃ rest, s = front ++ rest ∧ utf8Length front = n := by
  constructor
  · intro h
    fun_induction takeBytes? n s generalizing front with
    | case1 s =>
      obtain rfl := Option.some.inj h
      exact ⟨s, rfl, rfl⟩
    | case2 n => contradiction
    | case3 n c s fits ih =>
      obtain ⟨front, taken, rfl⟩ := Option.map_eq_some_iff.mp h
      obtain ⟨rest, rfl, size⟩ := ih taken
      exact ⟨rest, rfl, by rw [utf8Length, size]; omega⟩
    | case4 n c s wide => contradiction
  · rintro ⟨rest, rfl, rfl⟩
    induction front with
    | nil => exact takeBytes?.eq_1 rest
    | cons c front ih =>
      rw [List.cons_append, utf8Length, takeBytes?_cons (Nat.le_add_right _ _),
        Nat.add_sub_cancel_left, ih, Option.map_some]

theorem piece?_eq_some_iff :
    piece? s lo hi = some piece ↔
      ∃ front rest, s = front ++ piece ++ rest ∧ utf8Length front = lo ∧
        utf8Length (front ++ piece) = hi := by
  unfold piece?
  constructor
  · intro h
    split at h
    · rename_i ordered
      obtain ⟨behind, dropped, taken⟩ := Option.bind_eq_some_iff.mp h
      obtain ⟨front, rfl, rfl⟩ := dropBytes?_eq_some_iff.mp dropped
      obtain ⟨rest, rfl, size⟩ := takeBytes?_eq_some_iff.mp taken
      exact ⟨front, rest, by simp, rfl, by rw [utf8Length_append]; omega⟩
    · contradiction
  · rintro ⟨front, rest, rfl, rfl, rfl⟩
    have dropped : dropBytes? (utf8Length front) (front ++ piece ++ rest) = some (piece ++ rest) :=
      dropBytes?_eq_some_iff.mpr ⟨front, by simp, rfl⟩
    rw [utf8Length_append, if_pos (Nat.le_add_right _ _), dropped, Nat.add_sub_cancel_left]
    exact takeBytes?_eq_some_iff.mpr ⟨rest, rfl, rfl⟩

/-- There is a piece between positions that are in order and between characters, and no other. -/
theorem piece?_isSome_iff :
    (piece? s lo hi).isSome ↔ lo ≤ hi ∧ OnBoundary s lo ∧ OnBoundary s hi := by
  rw [Option.isSome_iff_exists]
  simp only [piece?_eq_some_iff, onBoundary_iff]
  constructor
  · rintro ⟨piece, front, rest, rfl, rfl, rfl⟩
    refine ⟨?_, ⟨front, piece ++ rest, by simp, rfl⟩, ⟨front ++ piece, rest, rfl, rfl⟩⟩
    rw [utf8Length_append]
    exact Nat.le_add_right _ _
  · rintro ⟨ordered, ⟨front, rest, rfl, rfl⟩, front', rest', split, rfl⟩
    rcases List.append_eq_append_iff.mp split with ⟨m, rfl, rfl⟩ | ⟨m, rfl, rfl⟩
    · exact ⟨m, front, rest', split, rfl, rfl⟩
    · -- The second position is not behind the first, so nothing is between them.
      rw [utf8Length_append] at ordered
      obtain rfl : m = [] := by
        by_contra more
        have := utf8Length_pos more
        omega
      exact ⟨[], front', rest, by simp, by simp, by simp⟩

theorem piece?_front :
    piece? s 0 n = some piece ↔ ∃ rest, s = piece ++ rest ∧ utf8Length piece = n := by
  rw [piece?, if_pos (Nat.zero_le n), dropBytes?.eq_1, Option.bind_some, Nat.sub_zero]
  exact takeBytes?_eq_some_iff

theorem piece?_behind (front rest : List Char) :
    piece? (front ++ rest) (utf8Length front) (utf8Length (front ++ rest)) = some rest :=
  piece?_eq_some_iff.mpr ⟨front, [], by simp, rfl, rfl⟩

end Pieces

section Words

variable {c : Char} {word : List Char} {k : String}

theorem utf8Size_of_ascii (ascii : c.toNat < 128) : c.utf8Size = 1 :=
  Char.utf8Size_eq_one_iff.mpr (Nat.le_of_lt_succ ascii)

theorem toNat_of_isAlphanum (letter : c.isAlphanum) : c.toNat < 128 := by
  have below {d : Char} (le : c.val ≤ d.val) (ascii : d.toNat < 128) : c.toNat < 128 :=
    Nat.lt_of_le_of_lt le ascii
  rcases Bool.or_eq_true_iff.mp letter with alpha | digit
  · rcases Bool.or_eq_true_iff.mp alpha with upper | lower
    · exact below (of_decide_eq_true upper).2 (by decide)
    · exact below (of_decide_eq_true (Bool.and_eq_true_iff.mp lower).2) (by decide)
  · exact below (of_decide_eq_true (Bool.and_eq_true_iff.mp digit).2) (by decide)

theorem utf8Length_of_ascii (ascii : ∀ c ∈ word, c.toNat < 128) :
    utf8Length word = word.length := by
  induction word with
  | nil => rfl
  | cons c word ih =>
    obtain ⟨first, others⟩ := List.forall_mem_cons.mp ascii
    rw [utf8Length, utf8Size_of_ascii first, ih others, List.length_cons, Nat.add_comm]

theorem utf8Length_of_toLower (same : word.map Char.toLower = k.toList)
    (ascii : k.toList.all (·.toNat < 128)) : utf8Length word = k.toList.length := by
  rw [← same, List.length_map]
  refine utf8Length_of_ascii fun c member => Hex.toNat_of_toLower ?_
  have lower : c.toLower ∈ k.toList := same ▸ List.mem_map_of_mem member
  exact of_decide_eq_true (List.all_eq_true.mp ascii _ lower)

theorem sameName_ofList_iff (word : List Char) (k : String) (small : foldCase k = k) :
    sameName (String.ofList word) k ↔ word.map Char.toLower = k.toList := by
  rw [sameName_iff, small, ← String.toList_inj]
  simp [foldCase]

end Words

namespace Scan

def Event.Sound (text : List Char) : Event → Prop
  | .moved p => OnBoundary text p
  | .cut s lo hi => lo ≤ hi ∧ OnBoundary s lo ∧ OnBoundary s hi
  | .parsed lo hi => lo < hi

def positions (events : List Event) : List Nat :=
  events.filterMap fun
    | .moved p => some p
    | _ => none

end Scan

open Scan

/-- All that has been done stays within the text, and the position has only gone forward to where
it is. -/
structure Cursor.Sound (text : List Char) (c : Cursor) : Prop where
  events : ∀ event ∈ c.events, event.Sound text
  latest : (positions c.events).head? = some c.position
  forward : (positions c.events).Pairwise (· ≥ ·)

structure Cursor.At (source : Source) (rest : List Char) (c : Cursor) : Prop where
  sound : c.Sound source.chars
  place : ∃ front, source.chars = front ++ rest ∧ c.position = utf8Length front

def Cursor.Near (source : Source) (rest : List Char) (c : Cursor) : Prop :=
  ∃ blanks left, Blank blanks ∧ rest = blanks ++ left ∧ c.At source left

namespace Scan

open Cursor (At Near)

variable {α β : Type} {source : Source}

def Goes (source : Source) (rest : List Char) (scan : Scan α) (x : α) (left : List Char) : Prop :=
  ∀ c : Cursor, c.At source rest → ∃ d, scan.on c = (.ok x, d) ∧ d.At source left

/-- The run comes to what the reader gives, at the place where the reader stops or behind blanks
there; fewer than `bound` characters are left. -/
inductive Reaches (source : Source) (bound : Nat) :
    Except Halt α × Cursor → Except Stop (α × List Char) → Prop
  | done {x : α} {rest : List Char} {c : Cursor} (place : c.Near source rest)
      (shorter : rest.length < bound) : Reaches source bound (.ok x, c) (.ok (x, rest))
  | stopped {stop : Stop} {c : Cursor} (sound : c.Sound source.chars) :
      Reaches source bound (.error (.refused (stop.fault source.grammar source.input)), c)
        (.error stop)

/-- From every such place the run comes to the outcome of a reader. -/
def Mirrors (source : Source) (start : Cursor → Prop) (bound : Nat) (scan : Scan α)
    (outcome : Except Stop (α × List Char)) : Prop :=
  ∀ c, start c → Reaches source bound (scan.on c) outcome

section Runs

variable {c : Cursor}

@[simp] theorem on_position : position.on c = (.ok c.position, c) := rfl

@[simp] theorem on_bind (scan : Scan α) (f : α → Scan β) :
    (scan >>= f).on c =
      match scan.on c with
      | (.ok x, c) => (f x).on c
      | (.error halt, c) => (.error halt, c) := by
  unfold on
  simp only [ExceptT.run_bind, StateT.run_bind]
  rcases StateT.run (ExceptT.run scan) c with ⟨_ | _, _⟩ <;> rfl

end Runs

section Places

variable {c : Cursor} {rest : List Char}

theorem near_of_at (place : c.At source rest) : c.Near source rest :=
  ⟨[], rest, nofun, rfl, place⟩

theorem near_of_trimmed (place : c.At source (trimStart rest)) : c.Near source rest := by
  obtain ⟨blanks, blank, split⟩ := exists_blank_append_trimStart rest
  exact ⟨blanks, _, blank, split, place⟩

theorem sound_note (sound : c.Sound source.chars) (event : Event)
    (inside : event.Sound source.chars) (still : positions [event] = []) :
    Cursor.Sound source.chars { c with events := event :: c.events } := by
  have same : positions (event :: c.events) = positions [event] ++ positions c.events :=
    List.filterMap_append (l := [event])
  rw [still, List.nil_append] at same
  refine ⟨List.forall_mem_cons.mpr ⟨inside, sound.events⟩, ?_, ?_⟩
  · rw [same]
    exact sound.latest
  · rw [same]
    exact sound.forward

theorem at_moveTo {m : List Char} (place : c.At source (m ++ rest)) :
    Cursor.At source rest
      ⟨c.position + utf8Length m, .moved (c.position + utf8Length m) :: c.events⟩ := by
  obtain ⟨front, split, same⟩ := place.place
  have there : source.chars = front ++ m ++ rest := by rw [split, List.append_assoc]
  have size : c.position + utf8Length m = utf8Length (front ++ m) := by
    rw [same, utf8Length_append]
  refine ⟨⟨List.forall_mem_cons.mpr ⟨?_, place.sound.events⟩, rfl, ?_⟩, front ++ m, there, size⟩
  · exact onBoundary_iff.mpr ⟨front ++ m, rest, there, size.symm⟩
  · obtain ⟨others, same⟩ := List.head?_eq_some_iff.mp place.sound.latest
    have ordered := place.sound.forward
    rw [same, List.pairwise_cons] at ordered
    have behind : ∀ p ∈ positions c.events, c.position + utf8Length m ≥ p := by
      rw [same]
      refine List.forall_mem_cons.mpr ⟨Nat.le_add_right _ _, fun p earlier => ?_⟩
      exact (ordered.1 p earlier).trans (Nat.le_add_right _ _)
    exact List.pairwise_cons.mpr ⟨behind, place.sound.forward⟩

end Places

section Steps

variable {start start' : Cursor → Prop} {bound bound' between : Nat} {scan : Scan α}
  {f : α → Scan β} {outcome : Except Stop (α × List Char)} {outcome' : Except Stop (β × List Char)}
  {k : α × List Char → Except Stop (β × List Char)} {x : α} {y : β} {rest left left' : List Char}

theorem Goes.bind (first : Goes source rest scan x left) (next : Goes source left (f x) y left') :
    Goes source rest (scan >>= f) y left' := by
  intro c place
  obtain ⟨d, done, place'⟩ := first c place
  obtain ⟨e, done', place''⟩ := next d place'
  exact ⟨e, by rw [on_bind, done]; exact done', place''⟩

theorem goes_pure (x : α) : Goes source rest (pure x) x rest := fun c place => ⟨c, rfl, place⟩

theorem Goes.then_ (first : Goes source rest scan x left)
    (next : Mirrors source (At source left) bound (f x) outcome') :
    Mirrors source (At source rest) bound (scan >>= f) outcome' := by
  intro c place
  obtain ⟨d, done, place'⟩ := first c place
  rw [on_bind, done]
  exact next d place'

theorem Goes.mirrors (goes : Goes source rest scan x left) (shorter : left.length < bound) :
    Mirrors source (At source rest) bound scan (.ok (x, left)) := by
  intro c place
  obtain ⟨d, done, place'⟩ := goes c place
  rw [done]
  exact .done (near_of_at place') shorter

theorem Mirrors.mono (mirrors : Mirrors source start bound scan outcome)
    (sub : ∀ c, start' c → start c) (less : bound ≤ bound') :
    Mirrors source start' bound' scan outcome := by
  intro c place
  have reached := mirrors c (sub c place)
  generalize scan.on c = run at reached ⊢
  cases reached with
  | done place shorter => exact .done place (shorter.trans_le less)
  | stopped sound => exact .stopped sound

theorem Mirrors.here (mirrors : Mirrors source (Near source rest) bound scan outcome) :
    Mirrors source (At source rest) bound scan outcome :=
  mirrors.mono (fun _ => near_of_at) le_rfl

theorem Mirrors.trimmed (mirrors : Mirrors source (Near source rest) bound scan outcome) :
    Mirrors source (At source (trimStart rest)) bound scan outcome :=
  mirrors.mono (fun _ => near_of_trimmed) le_rfl

theorem trimStart_trimStart (s : List Char) : trimStart (trimStart s) = trimStart s := by
  obtain ⟨blanks, blank, split⟩ := exists_blank_append_trimStart s
  conv_rhs => rw [split, trimStart_blank_append blank]

theorem length_trimStart_le (s : List Char) : (trimStart s).length ≤ s.length :=
  (List.dropWhile_sublist _).length_le

theorem Mirrors.loose (mirrors : Mirrors source start (trimStart rest).length scan outcome) :
    Mirrors source start rest.length scan outcome :=
  mirrors.mono (fun _ => id) (length_trimStart_le rest)

theorem Mirrors.bind (first : Mirrors source start between scan outcome)
    (next : ∀ x rest, rest.length < between →
      Mirrors source (Near source rest) bound (f x) (k (x, rest))) :
    Mirrors source start bound (scan >>= f) (outcome >>= k) := by
  intro c place
  have reached := first c place
  rw [on_bind]
  generalize scan.on c = run at reached ⊢
  cases reached with
  | done place shorter => exact next _ _ shorter _ place
  | stopped sound => exact .stopped sound

theorem Mirrors.seq (first : Mirrors source start between scan (.ok (x, rest)))
    (next : rest.length < between → Mirrors source (Near source rest) bound (f x) outcome') :
    Mirrors source start bound (scan >>= f) outcome' := by
  intro c place
  have reached := first c place
  rw [on_bind]
  generalize scan.on c = run at reached ⊢
  cases reached with
  | done place shorter => exact next shorter _ place

theorem Mirrors.stop {reason : Stop} (first : Mirrors source start between scan (.error reason)) :
    Mirrors source start bound (scan >>= f) (.error reason) := by
  intro c place
  have reached := first c place
  rw [on_bind]
  generalize scan.on c = run at reached ⊢
  cases reached with
  | stopped sound => exact .stopped sound

theorem Mirrors.of_split
    (mirrors : ∀ front, source.chars = front ++ rest →
      Mirrors source (At source rest) bound scan outcome) :
    Mirrors source (At source rest) bound scan outcome := by
  intro c place
  obtain ⟨front, split, -⟩ := place.place
  exact mirrors front split c place

theorem Mirrors.of_blanks
    (mirrors : ∀ blanks left, Blank blanks → rest = blanks ++ left →
      Mirrors source (At source left) bound scan outcome) :
    Mirrors source (Near source rest) bound scan outcome := by
  rintro c ⟨blanks, left, blank, split, place⟩
  exact mirrors blanks left blank split c place

theorem Mirrors.still (goes : ∀ left, Goes source left scan x left)
    (next : Mirrors source (Near source rest) bound (f x) outcome') :
    Mirrors source (Near source rest) bound (scan >>= f) outcome' := by
  refine .of_blanks fun blanks left blank split => (goes left).then_ ?_
  exact next.mono (fun c place => ⟨blanks, left, blank, split, place⟩) le_rfl

theorem mirrors_pure (x : α) (shorter : rest.length < bound) :
    Mirrors source (Near source rest) bound (pure x) (.ok (x, rest)) :=
  fun _ place => .done place shorter

theorem mirrors_stop (stop : Stop) :
    Mirrors source (Near source rest) bound
      (throw (.refused (stop.fault source.grammar source.input)) : Scan α) (.error stop) := by
  rintro c ⟨_, _, _, _, place⟩
  exact .stopped place.sound

theorem mirrors_refused (fault : Fault) :
    Mirrors source (Near source rest) bound (throw (.refused fault) : Scan α)
      (.error (.refused fault)) := mirrors_stop (.refused fault)

theorem mirrors_check (made : Except Fault α) (shorter : rest.length < bound) :
    Mirrors source (Near source rest) bound (check made)
      (match made with
        | .ok x => .ok (x, rest)
        | .error fault => .error (.refused fault)) := by
  cases made with
  | ok x => exact mirrors_pure x shorter
  | error fault => exact mirrors_refused fault

end Steps

section Primitives

variable {rest s piece : List Char} {lo hi : Nat}

theorem goes_position :
    Goes source rest position (source.size - utf8Length rest) rest := by
  intro c place
  refine ⟨c, ?_, place⟩
  obtain ⟨front, split, same⟩ := place.place
  rw [on_position, Source.size, split, utf8Length_append, same, Nat.add_sub_cancel]

theorem goes_note (event : Event) (inside : event.Sound source.chars)
    (still : positions [event] = []) : Goes source rest (note event) () rest :=
  fun _ place => ⟨_, rfl, sound_note place.sound event inside still, place.place⟩

theorem goes_moveTo (m : List Char) :
    Goes source (m ++ rest) (moveTo (source.size - utf8Length rest)) () rest := by
  intro c place
  have there : source.size - utf8Length rest = c.position + utf8Length m := by
    obtain ⟨front, split, same⟩ := place.place
    rw [Source.size, split, ← List.append_assoc, utf8Length_append, utf8Length_append, same,
      Nat.add_sub_cancel]
  rw [there]
  exact ⟨_, rfl, at_moveTo place⟩

theorem goes_cut (there : piece? s lo hi = some piece) :
    Goes source rest (cut s lo hi) piece rest := by
  refine (goes_note (.cut s lo hi) ?_ rfl).bind ?_
  · exact piece?_isSome_iff.mp (by rw [there]; rfl)
  · rw [there]
    exact goes_pure piece

theorem goes_cut? : Goes source rest (cut? s lo hi) (piece? s lo hi) rest := by
  unfold cut?
  cases there : piece? s lo hi with
  | none => exact goes_pure none
  | some piece =>
    refine (goes_note (.cut s lo hi) ?_ rfl).bind (goes_pure _)
    exact piece?_isSome_iff.mp (by rw [there]; rfl)

theorem piece?_left {front : List Char} (split : source.chars = front ++ rest) :
    piece? source.chars (source.size - utf8Length rest) source.size = some rest := by
  have size : source.size = utf8Length front + utf8Length rest := by
    rw [Source.size, split, utf8Length_append]
  refine piece?_eq_some_iff.mpr ⟨front, [], by simpa using split, ?_, by rw [← split]⟩
  rw [size, Nat.add_sub_cancel]

theorem goes_peek : Goes source rest (peek source) rest.head? rest := by
  intro c place
  obtain ⟨front, split, -⟩ := place.place
  refine Goes.bind goes_position ?_ c place
  exact Goes.bind (goes_cut (piece?_left split)) (goes_pure _)

theorem mirrors_unexpected {bound : Nat} :
    Mirrors source (At source rest) bound (unexpected source : Scan α)
      (.error (.unexpected rest)) := by
  refine goes_peek.then_ ?_
  cases rest with
  | nil => exact (mirrors_stop (.unexpected [])).here
  | cons c rest => exact goes_position.then_ (mirrors_stop (.unexpected (c :: rest))).here

theorem goes_advance {m : List Char} {bytes : Nat} (width : bytes = utf8Length m) :
    Goes source (m ++ rest) (advance bytes) () rest := by
  intro d place
  obtain ⟨front, split, -⟩ := place.place
  have there : source.size - utf8Length (m ++ rest) + bytes = source.size - utf8Length rest := by
    rw [Source.size, split, utf8Length_append, utf8Length_append]
    omega
  refine Goes.bind goes_position ?_ d place
  rw [there]
  exact goes_moveTo m

theorem goes_pass {c : Char} {bytes : Nat} (width : bytes = c.utf8Size) :
    Goes source (c :: rest) (advance bytes) () rest := goes_advance (m := [c]) width

end Primitives

section Loops

variable {c : Char} {s t rest : List Char} {width : Char → Nat} {p : Char → Bool}

theorem goes_skipWhile (widths : ∀ c, p c → width c = c.utf8Size) {rounds : Nat}
    (enough : s.length < rounds) :
    Goes source s (skipWhile source width p rounds) () (s.dropWhile p) := by
  induction s generalizing rounds with
  | nil =>
    obtain ⟨rounds, rfl⟩ := Nat.exists_eq_add_one_of_ne_zero (by omega : rounds ≠ 0)
    exact goes_peek.bind (goes_pure ())
  | cons c s ih =>
    rw [List.length_cons] at enough
    obtain ⟨rounds, rfl⟩ := Nat.exists_eq_add_one_of_ne_zero (by omega : rounds ≠ 0)
    refine goes_peek.bind ?_
    simp only [List.head?_cons, List.dropWhile_cons]
    cases part : p c with
    | true => exact (goes_pass (widths c part)).bind (ih (by omega))
    | false => exact goes_pure ()

theorem mirrors_quoted {quote : Char} (narrow : quote.utf8Size = 1) {rounds : Nat}
    (enough : s.length < rounds) :
    Mirrors source (At source s) s.length (quoted source quote rounds)
      (Reader.quoted quote s) := by
  fun_induction Reader.quoted quote s generalizing rounds with
  | case1 =>
    obtain ⟨rounds, rfl⟩ := Nat.exists_eq_add_one_of_ne_zero (by omega : rounds ≠ 0)
    exact goes_peek.then_ mirrors_unexpected
  | case2 =>
    obtain ⟨rounds, rfl⟩ := Nat.exists_eq_add_one_of_ne_zero (by omega : rounds ≠ 0)
    refine goes_peek.then_ ((goes_pass rfl).then_ ?_)
    rw [if_pos rfl]
    exact goes_peek.then_ (mirrors_pure [] (by simp)).here
  | case3 c other =>
    rw [List.length_singleton] at enough
    obtain ⟨rounds, rfl⟩ : ∃ n, rounds = n + 2 := ⟨rounds - 2, by omega⟩
    have ended : Mirrors source (At source []) 1 (quoted source quote (rounds + 1))
        (.error (.unexpected [])) := goes_peek.then_ mirrors_unexpected
    refine goes_peek.then_ ((goes_pass rfl).then_ ?_)
    rw [if_neg other]
    exact ended.stop
  | case4 s ih =>
    simp only [List.length_cons] at enough ⊢
    obtain ⟨rounds, rfl⟩ := Nat.exists_eq_add_one_of_ne_zero (by omega : rounds ≠ 0)
    refine goes_peek.then_ ((goes_pass rfl).then_ ?_)
    rw [if_pos rfl]
    refine goes_peek.then_ ?_
    rw [if_pos List.head?_cons]
    refine (goes_pass narrow.symm).then_ ?_
    exact (ih (by omega)).bind fun text rest shorter => mirrors_pure (quote :: text) (by omega)
  | case5 d s other =>
    simp only [List.length_cons] at enough ⊢
    obtain ⟨rounds, rfl⟩ := Nat.exists_eq_add_one_of_ne_zero (by omega : rounds ≠ 0)
    have ends : (d :: s).head? ≠ some quote := by simpa using other
    refine goes_peek.then_ ((goes_pass rfl).then_ ?_)
    rw [if_pos rfl]
    refine goes_peek.then_ ?_
    rw [if_neg ends]
    exact (mirrors_pure [] (by simp)).here
  | case6 c d s other ih =>
    rw [List.length_cons] at enough ⊢
    obtain ⟨rounds, rfl⟩ := Nat.exists_eq_add_one_of_ne_zero (by omega : rounds ≠ 0)
    refine goes_peek.then_ ((goes_pass rfl).then_ ?_)
    rw [if_neg other]
    exact (ih (by omega)).bind fun text rest shorter => mirrors_pure (c :: text) (by omega)

/-- The position where a run of characters ends, and the piece that the run is. -/
theorem stop_of_run {front run : List Char} (split : source.chars = front ++ run ++ rest) :
    source.size - utf8Length rest = source.size - utf8Length (run ++ rest) + utf8Length run ∧
      piece? source.chars (source.size - utf8Length (run ++ rest))
        (source.size - utf8Length rest) = some run := by
  have size : source.size = utf8Length front + utf8Length run + utf8Length rest := by
    rw [Source.size, split, utf8Length_append, utf8Length_append]
  rw [utf8Length_append, size]
  refine ⟨by omega, piece?_eq_some_iff.mpr ⟨front, rest, split, by omega, ?_⟩⟩
  rw [utf8Length_append]
  omega

variable (enough : source.chars.length < source.rounds)
include enough

theorem lt_rounds_of_split {front : List Char} (split : source.chars = front ++ s) :
    s.length < source.rounds := by
  refine Nat.lt_of_le_of_lt ?_ enough
  rw [split, List.length_append]
  exact Nat.le_add_left _ _

section Blanks

variable {bound : Nat} {f : Unit → Scan α} {outcome : Except Stop (α × List Char)}

theorem mirrors_skipBlanks
    (next : Mirrors source (At source (trimStart s)) bound (f ()) outcome) :
    Mirrors source (Near source s) bound (skipBlanks source >>= f) outcome := by
  refine .of_blanks fun blanks left blank split => .of_split fun front whole => ?_
  rw [split, trimStart_blank_append blank] at next
  exact (goes_skipWhile (fun _ _ => rfl) (lt_rounds_of_split enough whole)).then_ next

end Blanks

section Marks

variable {bound : Nat} {f : Bool → Scan α} {g : Unit → Scan α}
  {outcome : Except Stop (α × List Char)} (ascii : c.utf8Size = 1)

omit enough in
theorem trimStart_of_eat? (eaten : Reader.eat? c s = some t) : trimStart s = c :: t := by
  unfold Reader.eat? at eaten
  split at eaten
  · rename_i d rest trimmed
    split at eaten
    · rename_i same
      rw [trimmed, same, Option.some.inj eaten]
    · contradiction
  · contradiction

theorem Mirrors.passed (missing : Reader.eat? c s = none)
    (next : Mirrors source (At source (trimStart s)) bound (f false) outcome) :
    Mirrors source (Near source s) bound (eat source c >>= f) outcome := by
  have other : (trimStart s).head? ≠ some c := by
    intro same
    obtain ⟨rest, trimmed⟩ := List.head?_eq_some_iff.mp same
    simp [Reader.eat?, trimmed] at missing
  unfold eat
  rw [bind_assoc]
  refine mirrors_skipBlanks enough ?_
  rw [bind_assoc]
  refine goes_peek.then_ ?_
  rw [if_neg other, pure_bind]
  exact next

include ascii

theorem Mirrors.eaten (eaten : Reader.eat? c s = some t)
    (next : t.length < (trimStart s).length → Mirrors source (At source t) bound (f true) outcome) :
    Mirrors source (Near source s) bound (eat source c >>= f) outcome := by
  have trimmed := trimStart_of_eat? eaten
  have width : markWidth source.grammar c = c.utf8Size := by
    cases source.grammar <;> simp only [markWidth, ascii]
  unfold eat
  rw [bind_assoc]
  refine mirrors_skipBlanks enough ?_
  rw [trimmed] at next ⊢
  rw [bind_assoc]
  refine goes_peek.then_ ?_
  rw [List.head?_cons, if_pos rfl, bind_assoc]
  refine (goes_pass width).then_ ?_
  rw [pure_bind]
  exact next (Nat.lt_succ_self _)

theorem Mirrors.opened {k : List Char → Except Stop (α × List Char)}
    (next : ∀ t, t.length < (trimStart s).length →
      Mirrors source (At source t) bound (g ()) (k t)) :
    Mirrors source (Near source s) bound (expect source c >>= g) (Reader.expect c s >>= k) := by
  unfold expect Reader.expect
  rw [bind_assoc]
  cases eaten : Reader.eat? c s with
  | some t => exact .eaten enough ascii eaten fun shorter => next t shorter
  | none =>
    have stopped : Mirrors source (At source (trimStart s)) 0 (unexpected source : Scan Unit) _ :=
      mirrors_unexpected
    exact .passed enough eaten stopped.stop

theorem Mirrors.expected {k : List Char → Except Stop (α × List Char)}
    (next : ∀ t, t.length < s.length → Mirrors source (At source t) bound (g ()) (k t)) :
    Mirrors source (Near source s) bound (expect source c >>= g) (Reader.expect c s >>= k) :=
  .opened enough ascii fun t shorter => next t (shorter.trans_le (length_trimStart_le s))

end Marks

theorem mirrors_run (widths : ∀ c, p c → width c = c.utf8Size) :
    Mirrors source (At source s) s.length (run source width p)
      (if (s.takeWhile p).isEmpty then .error (.unexpected s)
        else .ok (s.takeWhile p, s.dropWhile p)) := by
  refine .of_split fun front split => goes_position.then_ ?_
  refine (goes_skipWhile widths (lt_rounds_of_split enough split)).then_ (goes_position.then_ ?_)
  have parts : s.takeWhile p ++ s.dropWhile p = s := List.takeWhile_append_dropWhile
  generalize s.takeWhile p = run at parts
  generalize s.dropWhile p = rest at parts
  subst parts
  obtain ⟨stop, piece⟩ := stop_of_run (split.trans (List.append_assoc ..).symm)
  cases run with
  | nil =>
    rw [if_pos (by rw [stop]; rfl)]
    exact mirrors_unexpected
  | cons c run =>
    have more := utf8Length_pos (List.cons_ne_nil c run)
    rw [if_neg (by omega), if_neg (by simp)]
    refine goes_position.then_ ((goes_cut piece).mirrors ?_)
    rw [List.cons_append, List.length_cons, List.length_append]
    omega

end Loops

theorem mirrors_parsing {s : List Char} {scan : Scan α} {outcome : Except Stop (α × List Char)}
    (mirrors : Mirrors source (Near source s) (trimStart s).length scan outcome) :
    Mirrors source (Near source s) (trimStart s).length (parsing scan) outcome := by
  refine .of_blanks fun blanks left blank split => ?_
  have solid : (trimStart s).length ≤ left.length := by
    rw [split, trimStart_blank_append blank]
    exact length_trimStart_le left
  have here : Mirrors source (At source left) (trimStart s).length scan outcome :=
    mirrors.mono (fun c place => ⟨blanks, left, blank, split, place⟩) le_rfl
  suffices Mirrors source (At source left) (trimStart s).length (parsing scan)
      (outcome >>= fun x => .ok x) by
    cases outcome <;> exact this
  -- Both positions are told by what is left there, and at the end fewer characters are left.
  refine .of_split fun front whole => goes_position.then_ ?_
  have within : utf8Length left ≤ source.size := by
    rw [Source.size, whole, utf8Length_append]
    exact Nat.le_add_left _ _
  refine here.bind fun x rest shorter => .of_blanks fun blanks' left' blank' split' => ?_
  refine .of_split fun front' whole' => goes_position.then_ ?_
  have fewer : left'.length ≤ rest.length := by
    rw [split', List.length_append]
    exact Nat.le_add_left _ _
  have less := utf8Length_lt (whole'.symm.trans whole) (by omega)
  refine (goes_note (.parsed _ _) ?_ rfl).then_ ?_
  · exact Nat.sub_lt_sub_left (less.trans_le within) less
  · refine (mirrors_pure x shorter).mono (fun c place => ?_) le_rfl
    exact ⟨blanks', left', blank', split', place⟩

/-- Wherever fewer than `limit` characters are left, the run mirrors the reader, and it takes up some
of the text behind the blanks. -/
def Tracks (source : Source) (limit : Nat) (scan : Scan α) (reader : Reader α) : Prop :=
  ∀ s, s.length < limit → Mirrors source (Near source s) (trimStart s).length scan (reader s)

section Lists

variable (enough : source.chars.length < source.rounds) {limit : Nat} {item : Scan α}
  {reader : Reader α} (step : Tracks source limit item reader) (closing : Char)
  (ascii : closing.utf8Size = 1) {s : List Char} (short : s.length < limit)
include enough step ascii short

theorem mirrors_items {rounds fuel : Nat} (within : s.length < rounds)
    (within' : s.length < fuel) :
    Mirrors source (Near source s) s.length (items source item closing rounds)
      (Reader.items reader closing fuel s) := by
  induction rounds generalizing fuel s with
  | zero => omega
  | succ rounds ih =>
    obtain ⟨fuel, rfl⟩ := Nat.exists_eq_add_one_of_ne_zero (by omega : fuel ≠ 0)
    refine (step s short).loose.bind fun x t shorter => ?_
    dsimp only
    cases closed : Reader.eat? closing t with
    | some u =>
      refine .eaten enough ascii closed fun less => (mirrors_pure [x] ?_).here
      exact (less.trans_le (length_trimStart_le t)).trans shorter
    | none =>
      refine .passed enough closed (.trimmed (.expected enough rfl fun u less => ?_))
      have others : Mirrors source (Near source u) u.length (items source item closing rounds)
          (Reader.items reader closing fuel u) := ih (by omega) (by omega) (by omega)
      exact others.here.bind fun xs v less' => mirrors_pure (x :: xs) (by omega)

theorem mirrors_list (within : limit ≤ source.rounds) :
    Mirrors source (Near source s) s.length (list source item closing)
      (Reader.list reader closing s) := by
  unfold list Reader.list
  cases closed : Reader.eat? closing s with
  | some t =>
    refine .eaten enough ascii closed fun shorter => (mirrors_pure [] ?_).here
    exact shorter.trans_le (length_trimStart_le s)
  | none =>
    refine .passed enough closed (.trimmed ?_)
    exact mirrors_items enough step closing ascii short (short.trans_le within)
      (Nat.lt_succ_self _)

end Lists

section Digits

variable {rest hex : List Char} {bound : Nat}

theorem mirrors_byteAt (fault : Fault) {s : List Char} {i : Nat} {a b : Char}
    (piece : piece? s i (i + 2) = some [a, b]) (shorter : rest.length < bound) :
    Mirrors source (Near source rest) bound (byteAt fault s i)
      (match Hex.pair? a b with
        | some byte => .ok (byte, rest)
        | none => .error (.refused fault)) := by
  refine .still (fun _ => goes_cut piece) ?_
  dsimp only
  cases Hex.pair? a b with
  | some byte => exact mirrors_pure byte shorter
  | none => exact mirrors_refused fault

theorem mirrors_pairs (fault : Fault) (front : List Char) (even : hex.length % 2 = 0)
    (ascii : ∀ c ∈ hex, c.toNat < 128) (shorter : rest.length < bound) :
    Mirrors source (Near source rest) bound
      ((List.range' (utf8Length front) (hex.length / 2) 2).mapM (byteAt fault (front ++ hex)))
      (match Hex.decode? hex with
        | some bytes => .ok (bytes, rest)
        | none => .error (.refused fault)) := by
  -- A pair that has been decoded goes to the front, where the next position is behind it.
  induction hex using Hex.decode?.induct generalizing front with
  | case1 => exact mirrors_pure [] shorter
  | case2 a => simp at even
  | case3 a b hex ih =>
    simp only [List.forall_mem_cons] at ascii
    obtain ⟨first, second, others⟩ := ascii
    rw [List.length_cons, List.length_cons] at even ⊢
    have pairs : (hex.length + 1 + 1) / 2 = hex.length / 2 + 1 := by omega
    have size : utf8Length (front ++ [a, b]) = utf8Length front + 2 := by
      rw [utf8Length_append]
      simp only [utf8Length, utf8Size_of_ascii first, utf8Size_of_ascii second]
    have split : front ++ [a, b] ++ hex = front ++ a :: b :: hex := by simp
    have piece : piece? (front ++ a :: b :: hex) (utf8Length front) (utf8Length front + 2) =
        some [a, b] := piece?_eq_some_iff.mpr ⟨front, hex, split.symm, rfl, size⟩
    have byte : Mirrors source (Near source rest) bound _ _ := mirrors_byteAt fault piece shorter
    have next := ih (front ++ [a, b]) (by omega) others
    rw [size, split] at next
    rw [pairs, List.range'_succ, List.mapM_cons, Hex.decode?]
    generalize Hex.pair? a b = pair at byte ⊢
    cases pair with
    | none => exact byte.stop
    | some first =>
      refine byte.seq fun _ => ?_
      generalize Hex.decode? hex = decoded at next ⊢
      cases decoded with
      | none => exact next.stop
      | some others => exact next.seq fun _ => mirrors_pure (first :: others) shorter

theorem mirrors_hexBytes (fault : Fault) (even : hex.length % 2 = 0)
    (ascii : ∀ c ∈ hex, c.toNat < 128) (shorter : rest.length < bound) :
    Mirrors source (Near source rest) bound (hexBytes fault hex)
      (match Hex.decode? hex with
        | some bytes => .ok (bytes, rest)
        | none => .error (.refused fault)) := by
  have all : Mirrors source (Near source rest) bound _ _ :=
    mirrors_pairs fault [] even ascii shorter
  rw [← utf8Length_of_ascii ascii] at all
  exact all

theorem ascii_of_decode? {bytes : List UInt8} (read : Hex.decode? hex = some bytes) :
    hex.length % 2 = 0 ∧ ∀ c ∈ hex, c.toNat < 128 := by
  induction hex using Hex.decode?.induct generalizing bytes with
  | case1 => exact ⟨rfl, List.forall_mem_nil _⟩
  | case2 a => contradiction
  | case3 a b hex ih =>
    simp only [Hex.decode?, Option.bind_eq_bind, Option.bind_eq_some_iff,
      Hex.pair?_eq_some_iff] at read
    obtain ⟨_, ⟨high, low, first, second, -⟩, _, rest, -⟩ := read
    obtain ⟨even, others⟩ := ih rest
    refine ⟨by rw [List.length_cons, List.length_cons]; omega, ?_⟩
    refine List.forall_mem_cons.mpr ⟨?_, List.forall_mem_cons.mpr ⟨?_, others⟩⟩
    · split_ifs at first with plus
      · rw [plus]
        decide
      · exact Hex.toNat_of_digitValue? first
    · exact Hex.toNat_of_digitValue? second

end Digits

section Whole

variable (enough : source.chars.length < source.rounds) {scan : Scan α} {reader : Reader α}
include enough

theorem mirrors_whole (tracks : Tracks source (source.chars.length + 1) scan reader) :
    Mirrors source (Near source source.chars) (source.chars.length + 1) (whole source scan) (do
      let (x, rest) ← reader source.chars
      match trimStart rest with
      | [] => return (x, [])
      | rest => .error (.unexpected rest)) := by
  refine (tracks _ (Nat.lt_succ_self _)).bind fun x rest shorter => ?_
  refine mirrors_skipBlanks enough (.of_split fun front split => goes_position.then_ ?_)
  have size : source.size = utf8Length front + utf8Length (trimStart rest) := by
    rw [Source.size, split, utf8Length_append]
  dsimp only
  generalize trimStart rest = left at size ⊢
  cases left with
  | nil =>
    rw [if_neg (by rw [size]; exact Nat.lt_irrefl _)]
    exact (mirrors_pure x (Nat.succ_pos _)).here
  | cons c left =>
    have more := utf8Length_pos (List.cons_ne_nil c left)
    rw [if_pos (by omega)]
    exact mirrors_unexpected

end Whole

end Scan

end Cql
