import Cql.Registry
import Cql.Ty.Asking

/-!
Reading types against a registry with a note of what it did not know. The note is taken while the
text is read, and what is wrong with the text is told from the note alone.
-/

namespace Cql.Registry

/-- Looks up in the registry, and notes the name if it is not known there, over any earlier note. -/
def tracking (r : Registry) : Lookup (StateM (Option String)) := fun keyspace name => do
  let found := r.resolve keyspace name
  if found.isNone then
    set (some (Label.text ⟨keyspace, name⟩))
  return found

/-- Reads a type text. If it is not a type and a name has been noted, the fault is that this name is
not known; else it is one of the text. -/
def parseTracking (r : Registry) (input : String) : Except SchemaFault Ty :=
  match (Ty.parseAsking r.tracking input).run none with
  | (.ok t, _) => .ok t
  | (.error _, some name) => .error (.unknownType name)
  | (.error fault, none) => .error (.value fault)

end Cql.Registry
