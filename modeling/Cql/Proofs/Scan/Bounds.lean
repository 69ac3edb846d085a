import Cql.Proofs.Literal.Scanning
import Cql.Proofs.Ty.Scanning
import Cql.Proofs.Validator.Scanning

/-!
Whatever the text, reading it by positions in it stays within the text: positions and the ends of
pieces are between characters, the position goes forward only, what is read takes up some of the
text, and so reading ends with a value or a fault, which are those of the readers.
-/

namespace Cql

open Scan

/-- The run ends as the reading of the text does, and stays within the text on the way. -/
structure Within {α : Type} (input : String) (run : Except Halt α × Cursor)
    (result : Except Fault α) : Prop where
  ends : run.1 = result.mapError .refused
  boundaries : ∀ p, .moved p ∈ run.2.events →
    p ≤ input.utf8ByteSize ∧ OnBoundary input.toList p
  pieces : ∀ s lo hi, .cut s lo hi ∈ run.2.events → lo ≤ hi ∧ OnBoundary s lo ∧ OnBoundary s hi
  latest : (positions run.2.events).head? = some run.2.position
  forward : (positions run.2.events).Pairwise (· ≥ ·)
  advances : ∀ lo hi, .parsed lo hi ∈ run.2.events → lo < hi

variable {α : Type} {source : Source} {input : String}

theorem le_of_onBoundary {p : Nat} (between : OnBoundary input.toList p) :
    p ≤ input.utf8ByteSize := by
  obtain ⟨front, rest, split, rfl⟩ := onBoundary_iff.mp between
  rw [← String.ofList_toList (s := input), utf8ByteSize_ofList, split, utf8Length_append]
  exact Nat.le_add_right _ _

theorem within_of_sound {run : Except Halt α × Cursor} {result : Except Fault α}
    (ends : run.1 = result.mapError .refused) (sound : run.2.Sound input.toList) :
    Within input run result where
  ends := ends
  boundaries _ moved :=
    have between : OnBoundary input.toList _ := sound.events _ moved
    ⟨le_of_onBoundary between, between⟩
  pieces _ _ _ cut := sound.events _ cut
  latest := sound.latest
  forward := sound.forward
  advances _ _ parsed := sound.events _ parsed

def Source.result (source : Source) (outcome : Except Stop (α × List Char)) : Except Fault α :=
  match outcome with
  | .ok (x, _) => .ok x
  | .error stop => .error (stop.fault source.grammar source.input)

theorem within_of_reaches {bound : Nat} {run : Except Halt α × Cursor}
    {outcome : Except Stop (α × List Char)} (reached : Reaches source bound run outcome) :
    Within source.input run (source.result outcome) := by
  cases reached with
  | done place _ =>
    obtain ⟨_, _, _, _, there⟩ := place
    exact within_of_sound rfl there.sound
  | stopped sound => exact within_of_sound rfl sound

theorem at_start : Cursor.At source source.chars ⟨0, [.moved 0]⟩ := by
  refine ⟨⟨?_, rfl, List.pairwise_singleton ..⟩, [], rfl, rfl⟩
  rw [List.forall_mem_singleton]
  exact onBoundary_iff.mpr ⟨[], source.chars, rfl, rfl⟩

theorem within_whole (enough : source.chars.length < source.rounds) {scan : Scan α}
    {reader : Reader α} (tracks : Tracks source (source.chars.length + 1) scan reader) :
    Within source.input (whole source scan).fromStart
      (Reader.whole source.grammar reader source.input) := by
  have reached := mirrors_whole enough tracks _ (near_of_at at_start)
  suffices same : Reader.whole source.grammar reader source.input = source.result _ by
    rw [same]
    exact within_of_reaches reached
  unfold Reader.whole
  cases reader source.input.toList with
  | error stop => rfl
  | ok read =>
    obtain ⟨x, rest⟩ := read
    dsimp only [bind, Except.bind]
    cases trimStart rest <;> rfl

/-- Whatever is read, reading stays within the text, as long as loops are given more rounds than
the text has characters. -/
theorem within_of_lt_rounds (resolve : Resolver) (t : Ty) {rounds : Nat}
    (enough : input.toList.length < rounds) :
    Within input (Ty.scan resolve input rounds).fromStart (Ty.parseWith resolve input) ∧
      Within input (t.scanLiteral input rounds).fromStart (t.parseLiteral input) ∧
      Within input (Validator.scan input rounds).fromStart (Validator.parse input) ∧
      Within input (Ty.Scanning.isFrozenText input).fromStart (.ok (isFrozenText input)) := by
  refine ⟨?_, ?_, ?_, ?_⟩
  · let source : Source := ⟨.typeText, input, rounds⟩
    have tracks : Tracks source (source.chars.length + 1) (Ty.Scanning.reader source resolve rounds)
        fun s => Ty.reader resolve (s.length + 1) s := by
      intro s short
      have within : s.length + 1 ≤ rounds := Nat.le_trans short enough
      exact Ty.Scanning.tracks_reader enough resolve within le_rfl within s (Nat.lt_succ_self _)
    exact within_whole enough tracks
  · let source : Source := ⟨.literal, input, rounds⟩
    have tracks : Tracks source (source.chars.length + 1) (Literal.Scanning.reader source rounds t)
        (Literal.reader input t) := Literal.Scanning.tracks_reader enough t enough enough
    exact within_whole enough tracks
  · let source : Source := ⟨.validator, input, rounds⟩
    have tracks : Tracks source (source.chars.length + 1) (Validator.Scanning.reader source)
        Validator.reader := Validator.Scanning.tracks_reader enough enough
    exact within_whole enough tracks
  · let source : Source := ⟨.typeText, input, rounds⟩
    have start : Cursor.At source source.chars ⟨0, [.moved 0]⟩ := at_start
    obtain ⟨c, told, there⟩ := Ty.Scanning.goes_isFrozenText input _ start
    unfold fromStart
    rw [told]
    exact within_of_sound rfl there.sound

/-- A keyword is looked for where the sixth byte is the first of the two of a character. -/
theorem within_of_halved_character :
    "frozeé".toList.length < 7 ∧ piece? "frozeé".toList 0 6 = none ∧
      Within "frozeé" (Ty.scan Ty.noUserTypes "frozeé" 7).fromStart
        (Ty.parseWith Ty.noUserTypes "frozeé") ∧
      Within "frozeé" ((Ty.scalar .text).scanLiteral "frozeé" 7).fromStart
        ((Ty.scalar .text).parseLiteral "frozeé") ∧
      Within "frozeé" (Validator.scan "frozeé" 7).fromStart (Validator.parse "frozeé") ∧
      Within "frozeé" (Ty.Scanning.isFrozenText "frozeé").fromStart (.ok (isFrozenText "frozeé")) :=
  ⟨by decide, by decide, within_of_lt_rounds Ty.noUserTypes (.scalar .text) (by decide)⟩

end Cql
