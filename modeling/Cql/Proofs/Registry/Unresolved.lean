import Cql.Registry.Tracking
import Cql.Proofs.Registry
import Cql.Proofs.Ty.Asking

/-!
What is reported of a text that a registry does not read as a type: the first user type named in it
that the registry lacks, if there is one before the text is malformed, and else what is malformed.
-/

namespace Cql

namespace Registry

variable {r : Registry} {keyspace : Option String} {name : String} {t : Ty}

theorem tracking_of_none (unknown : r.resolve keyspace name = none) (note : Option String) :
    (r.tracking keyspace name).run note = (none, some (Label.text ⟨keyspace, name⟩)) := by
  unfold tracking
  rw [unknown]
  rfl

theorem tracking_of_some (known : r.resolve keyspace name = some t) (note : Option String) :
    (r.tracking keyspace name).run note = (some t, note) := by
  unfold tracking
  rw [known]
  rfl

end Registry

namespace Asks

variable {α β : Type} {P : α → β → Prop} {x : Asks α} {y : Asks β}

theorem run_ask {σ : Type} (look : Lookup (StateM σ)) (label : Label) (next : Option Ty → Asks α)
    (held : σ) :
    ((ask label next).run look).run held =
      let (answer, after) := (look label.keyspace label.name).run held
      ((next answer).run look).run after := rfl

/-- At its end, a reading comes to what it comes to without a note, and the note has the first name
that the registry lacks, if there is one. -/
theorem InStep.run_tracking (r : Registry) (steps : InStep P x y) (note : Option String) :
    (x.run r.tracking).run note =
      (x.answered r.resolve,
        ((y.labels.find? r.resolve.lacks).map Label.text).or note) := by
  induction steps generalizing note with
  | ended related => rfl
  | stop rest => rfl
  | @ask l next next' unknown unknown' _ ih =>
    rw [run_ask, labels, List.find?_cons, answered_ask]
    cases found : r.resolve l.keyspace l.name with
    | none =>
      -- the reading ends here, so that no later name takes the place of this one
      have lacking : r.resolve.lacks l = true := by simp [Resolver.lacks, found]
      rw [Registry.tracking_of_none found, lacking]
      dsimp only
      rw [unknown]
      rfl
    | some t =>
      have known : r.resolve.lacks l = false := by simp [Resolver.lacks, found]
      rw [Registry.tracking_of_some found, known]
      exact ih t _ note

end Asks

namespace Registry

variable {r : Registry} {input : String} {fault : Fault}

theorem parse_eq_unknownType_iff {name : String} :
    r.parse input = .error (.unknownType name) ↔
      Ty.parseWith r.resolve input = .error (.unknownType name) := by
  unfold parse
  split <;> simp_all

theorem parse_of_format (h : Ty.parseWith r.resolve input = .error fault)
    (format : fault.category = .format) : r.parse input = .error (.value fault) := by
  unfold parse
  rw [h]
  cases fault with
  | unknownType name => contradiction
  | _ => rfl

/-- What a run with a note comes to: the same as without, and the first name that the registry
lacks. -/
theorem run_parseAsking (r : Registry) (input : String) :
    (Ty.parseAsking r.tracking input).run none =
      (Ty.parseWith r.resolve input,
        ((Ty.references input).find? r.resolve.lacks).map Label.text) := by
  have tracked : ((Ty.asking input).run r.tracking).run none = _ :=
    (Ty.Asking.inStep_reader _ _).run_tracking r none
  unfold Ty.parseAsking
  rw [StateT.run_bind, tracked, Option.or_none, Ty.parseWith_eq]
  rfl

/-- The note adds nothing to what the fault says. -/
theorem parseTracking_eq_parse (r : Registry) (input : String) :
    r.parseTracking input = r.parse input := by
  unfold parseTracking
  rw [run_parseAsking]
  cases outcome : Ty.parseWith r.resolve input with
  | ok t => exact (parse_eq_ok_iff.mpr outcome).symm
  | error fault =>
    obtain ⟨label, first, rfl⟩ | ⟨none, format⟩ := Ty.unknownType_or_format outcome
    · rw [first]
      exact (parse_eq_unknownType_iff.mpr outcome).symm
    · rw [none]
      exact (parse_of_format outcome format).symm

theorem eq_of_unknownType_message {name name' : String}
    (h : (Fault.unknownType name).message = (Fault.unknownType name').message) : name = name' := by
  have text (name : String) : (Fault.unknownType name).message = "unknown type '" ++ name ++ "'" :=
    rfl
  rw [text, text] at h
  exact String.append_right_inj _ |>.mp (String.append_left_inj _ |>.mp h)

/-- The report on a text, which the note decides, is what the fault of the text says by itself. A
text that is read as a type is reported as such. It is reported that a user type is not known
exactly if this is the fault of the text, and exactly if the registry lacks a user type that is
named in the text, up to where the text can be read; it is the first such. Whatever else is wrong is
malformed text, and the fault stays as it is. -/
theorem parse_reports (r : Registry) (input : String) :
    r.parseTracking input = r.parse input ∧
      (∀ t, r.parse input = .ok t ↔ Ty.parseWith r.resolve input = .ok t) ∧
      (∀ name, r.parse input = .error (.unknownType name) ↔
        ∃ fault, Ty.parseWith r.resolve input = .error fault ∧
          fault.category = .invalidArgument ∧ fault.message = s!"unknown type '{name}'") ∧
      (∀ name, r.parse input = .error (.unknownType name) ↔
        ∃ label, (Ty.references input).find? r.resolve.lacks = some label ∧
          label.text = name) ∧
      ∀ fault, Ty.parseWith r.resolve input = .error fault →
        (∀ name, r.parse input ≠ .error (.unknownType name)) →
          fault.category = .format ∧ r.parse input = .error (.value fault) := by
  refine ⟨parseTracking_eq_parse r input, fun t => parse_eq_ok_iff, fun name => ⟨?_, ?_⟩,
    fun name => ⟨?_, ?_⟩, fun fault h other => ?_⟩
  · intro reported
    exact ⟨_, parse_eq_unknownType_iff.mp reported, rfl, rfl⟩
  · rintro ⟨fault, h, invalid, message⟩
    obtain ⟨label, -, rfl⟩ | ⟨-, format⟩ := Ty.unknownType_or_format h
    · rw [← eq_of_unknownType_message message]
      exact parse_eq_unknownType_iff.mpr h
    · rw [format] at invalid
      contradiction
  · intro reported
    obtain ⟨label, first, same⟩ | ⟨-, format⟩ :=
      Ty.unknownType_or_format (parse_eq_unknownType_iff.mp reported)
    · exact ⟨label, first, (Fault.unknownType.inj same).symm⟩
    · contradiction
  · rintro ⟨label, first, rfl⟩
    exact parse_eq_unknownType_iff.mpr (Ty.parseWith_of_lacks first)
  · obtain ⟨label, -, rfl⟩ | ⟨-, format⟩ := Ty.unknownType_or_format h
    · exact absurd (parse_eq_unknownType_iff.mpr h) (other _)
    · exact ⟨format, parse_of_format h format⟩

theorem parse_reports_second :
    let r := ((forKeyspace "shop").register "shop" "address" []).2
    let input := "map<frozen<Address>, tuple<phone, other.zip, list<"
    Ty.references input = [⟨none, "Address"⟩, ⟨none, "phone"⟩, ⟨some "other", "zip"⟩] ∧
      r.parseTracking input = .error (.unknownType "phone") ∧
      r.parse "set<address" = .error (.value (.unexpectedEnd .typeText "set<address")) := by
  intro r input
  obtain ⟨noted, -, -, unknown, -⟩ := parse_reports r input
  obtain ⟨-, -, -, missing, malformed⟩ := parse_reports r "set<address"
  have first : (Ty.references input).find? r.resolve.lacks = some ⟨none, "phone"⟩ := by
    subst r input
    rfl
  refine ⟨by subst input; rfl, ?_, (malformed _ rfl fun name lost => ?_).2⟩
  · rw [noted]
    exact (unknown "phone").mpr ⟨_, first, rfl⟩
  · obtain ⟨label, first, -⟩ := (missing name).mp lost
    have none : (Ty.references "set<address").find? r.resolve.lacks = none := rfl
    rw [none] at first
    contradiction

end Registry

end Cql
