import Cql.Proofs.Registry
import Cql.Proofs.Ty.Reader

/-!
Registered types in texts. The name of a type behind that of its keyspace and a point is read as the
type that was registered last, unless the keyspace is called like a scalar or like a keyword with
types after it: then reading stops at the point, whatever the registry holds.
-/

namespace Cql

namespace Ty

section Reserved

variable {resolve : Resolver} {depth : Nat} {keyspace : String} {b : Builder} {r : List Char}

theorem reader_builder_point (bare : BareName keyspace)
    (known : Builder.ofName? keyspace = some b) :
    reader resolve (depth + 1) (keyspace.toList ++ '.' :: r) = .error (.unexpected ('.' :: r)) := by
  have name : nameReader (keyspace.toList ++ '.' :: r) = .ok (keyspace, '.' :: r) :=
    nameReader_of_bare bare (by simp; rfl)
  have opening : Reader.expect '<' ('.' :: r) = .error (.unexpected ('.' :: r)) := rfl
  cases b <;> simp only [reader, name, known, opening, bind, Except.bind]

theorem reader_scalar_point {k : Scalar} (bare : BareName keyspace)
    (unknown : Builder.ofName? keyspace = none) (known : Scalar.ofName? keyspace = some k) :
    reader resolve (depth + 1) (keyspace.toList ++ '.' :: r) = .ok (.scalar k, '.' :: r) := by
  have name : nameReader (keyspace.toList ++ '.' :: r) = .ok (keyspace, '.' :: r) :=
    nameReader_of_bare bare (by simp; rfl)
  have closed : Reader.eat? '<' ('.' :: r) = none := rfl
  simp only [reader, name, unknown, closed, namedReader, known, ite_self, bind, Except.bind]

/-- A name that means something else is no keyspace. -/
theorem parseWith_reserved_point (bare : BareName keyspace) (reserved : ¬ Unreserved keyspace)
    (name : String) :
    parseWith resolve (keyspace ++ "." ++ name) =
      .error (.unexpectedChar .typeText '.' (utf8Length keyspace.toList)
        (keyspace ++ "." ++ name)) := by
  have text : (keyspace ++ "." ++ name).toList = keyspace.toList ++ '.' :: name.toList := by simp
  have position : utf8Length (keyspace.toList ++ '.' :: name.toList) -
      utf8Length ('.' :: name.toList) = utf8Length keyspace.toList := by
    rw [utf8Length_append]
    omega
  have solid : trimStart ('.' :: name.toList) = '.' :: name.toList := trimStart_cons rfl
  unfold parseWith Reader.whole
  rw [text]
  cases known : Builder.ofName? keyspace with
  | some b =>
    simp only [reader_builder_point bare known, Stop.fault, text, position]
  | none =>
    cases scalar : Scalar.ofName? keyspace with
    | some k =>
      simp only [reader_scalar_point bare known scalar, solid, Stop.fault, text, position]
    | none => exact absurd (unreserved_iff.mpr ⟨scalar, known⟩) reserved

theorem parseWith_qualified {name : String} {t : Ty} (outer : BareName keyspace)
    (inner : BareName name) (free : Unreserved keyspace)
    (found : resolve (some keyspace) name = some t) :
    parseWith resolve (keyspace ++ "." ++ name) = .ok t := by
  have text : (keyspace ++ "." ++ name).toList = keyspace.toList ++ '.' :: name.toList := by simp
  have first : nameReader (keyspace.toList ++ '.' :: name.toList) =
      .ok (keyspace, '.' :: name.toList) := nameReader_of_bare outer (by simp; rfl)
  have second : nameReader name.toList = .ok (name, []) := by
    have last : nameReader (name.toList ++ []) = .ok (name, []) :=
      nameReader_of_bare inner (by simp)
    rwa [List.append_nil] at last
  have read (depth : Nat) :
      reader resolve (depth + 1) (keyspace.toList ++ '.' :: name.toList) = .ok (t, []) :=
    reader_qualified free first second found
  simp only [parseWith, Reader.whole, text, read]
  rfl

end Reserved

end Ty

namespace Registry

variable {r : Registry} {keyspace name : String}

theorem resolve_register (keyed : Keyed r) (fields : List (String × Ty)) :
    (r.register keyspace name fields).2.resolve (some keyspace) name =
      some (r.register keyspace name fields).1.ty := by
  simp [resolve, get?_register keyed]

/-- A type that has just been registered, in a keyspace and under a name that may stand without
quotes, is what its name with its keyspace is read as, exactly if the keyspace is called neither
like a scalar nor like a keyword, in any case. Otherwise reading stops at the point between them.
What else the registry holds, and what the type is called, makes no difference. -/
theorem parse_registered (new : r.types = []) (registrations : List Registration)
    (outer : Ty.BareName keyspace) (inner : Ty.BareName name) (fields : List (String × Ty)) :
    let after := (r.registerAll registrations).register keyspace name fields
    after.2.parse (keyspace ++ "." ++ name) =
      if Ty.Unreserved keyspace then .ok after.1.ty
      else .error (.value (.unexpectedChar .typeText '.' (utf8Length keyspace.toList)
        (keyspace ++ "." ++ name))) := by
  intro after
  have keyed : Keyed (r.registerAll registrations) := keyed_registerAll (keyed_of_nil new)
  split
  · rename_i free
    have found : after.2.resolve (some keyspace) name = some after.1.ty :=
      resolve_register keyed fields
    exact parse_eq_ok_iff.mpr (Ty.parseWith_qualified outer inner free found)
  · rename_i reserved
    unfold parse
    rw [Ty.parseWith_reserved_point outer reserved]

theorem parse_registered_keywords :
    let fields : List (String × Ty) := [("x", .scalar .text)]
    let r := (forKeyspace "shop").registerAll [⟨"usertype", "LIST", []⟩, ⟨"shop", "int", []⟩]
    let kept := r.register "UserType" "list" fields
    let lost := r.register "Int" "t" fields
    kept.2.parse "UserType.list" = .ok (.user (some ⟨some "UserType", "list"⟩) fields) ∧
      lost.2.parse "Int.t" = .error (.value (.unexpectedChar .typeText '.' 3 "Int.t")) := by
  intro fields r kept lost
  have first := @parse_registered (forKeyspace "shop") "UserType" "list" rfl
    [⟨"usertype", "LIST", []⟩, ⟨"shop", "int", []⟩] (by decide) (by decide) fields
  have second := @parse_registered (forKeyspace "shop") "Int" "t" rfl
    [⟨"usertype", "LIST", []⟩, ⟨"shop", "int", []⟩] (by decide) (by decide) fields
  exact ⟨first.trans (if_pos (by decide)), second.trans (if_neg (by decide))⟩

/-- Types of keyspaces that are called like a scalar and like a keyword are not read by their names,
though these stand for them in texts. -/
theorem parse_registered_lost :
    let int := empty.register "int" "t" [("x", .scalar .text)]
    let list := empty.register "list" "t" []
    int.1.ty.text = "int.t" ∧
      int.2.parse "int.t" = .error (.value (.unexpectedChar .typeText '.' 3 "int.t")) ∧
      list.1.ty.text = "list.t" ∧
      list.2.parse "list.t" = .error (.value (.unexpectedChar .typeText '.' 4 "list.t")) ∧
      ¬ ∀ (registrations : List Registration) (keyspace name : String)
        (fields : List (String × Ty)), Ty.BareName keyspace → Ty.BareName name →
        let after := (empty.registerAll registrations).register keyspace name fields
        after.2.parse (keyspace ++ "." ++ name) = .ok after.1.ty := by
  intro int list
  have refused : int.2.parse "int.t" = .error (.value (.unexpectedChar .typeText '.' 3 "int.t")) :=
    rfl
  refine ⟨rfl, refused, rfl, rfl, ?_⟩
  intro reachable
  have read : int.2.parse "int.t" = .ok int.1.ty :=
    reachable [] "int" "t" [("x", .scalar .text)] (by decide) (by decide)
  rw [refused] at read
  contradiction

end Registry

end Cql
