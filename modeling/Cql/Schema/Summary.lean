import Cql.Schema.Keyspace

namespace Cql

namespace Column

def flags (c : Column) : List String :=
  (if c.isStatic then ["static"] else []) ++ (if c.reversed then ["desc"] else []) ++
    (if c.frozen then ["frozen"] else [])

def summary (c : Column) : String :=
  let type := (c.type.map Ty.text).getD "?"
  let flags := if c.flags.isEmpty then "" else " [" ++ ", ".intercalate c.flags ++ "]"
  s!"    {c.name} {type}{flags}\n"

end Column

namespace UserType

def summary (u : UserType) : String :=
  s!"  type {u.ty.text}\n" ++ String.join (u.fields.map fun f => s!"    {f.1} {f.2.text}\n")

end UserType

namespace Table

def summary (t : Table) : String :=
  let key := ", ".intercalate (t.primaryKey.map Column.name)
  s!"  table {t.name} ({key})\n" ++ String.join (t.columns.map Column.summary)

end Table

namespace Keyspace

def summary (k : Keyspace) : String :=
  s!"keyspace {k.name}\n" ++ String.join (k.userTypes.map UserType.summary) ++
    String.join (k.tables.map Table.summary) ++
    String.join (k.functions.map fun f => s!"  function {f.signature} -> {f.returns.text}\n") ++
    String.join (k.aggregates.map fun a => s!"  aggregate {a.signature} -> {a.returns.text}\n")

end Keyspace

def Schema.summary (s : Schema) : String := String.join (s.keyspaces.map Keyspace.summary)

end Cql
