import Cql.Command.Arguments
import Cql.Schema.Config
import Cql.Schema.Summary

namespace Cql

def Ty.describe (t : Ty) : Json :=
  .ofMembers [("type", .text t.text), ("name", .text t.name),
    ("code", .text (hexCode t.code.number)), ("scalar", .bool t.isScalar)]

namespace Command

def loadSchema (path : String) (content : Option String) : Except CommandFault Schema := do
  let d ← ofSchema (ConfigFile.load [.hcl, .toml] path content)
  ofSchema (Schema.ofDecl d)

def findKeyspace (s : Schema) : Option String → Except CommandFault Keyspace
  | some name =>
    match s.keyspace? name with
    | some k => .ok k
    | none => .error (.keyspaceNotFound name)
  | none =>
    match s.keyspaces with
    | k :: _ => .ok k
    | [] => .error (.keyspaceNotFound "<none>")

def run (command : Command) (content : Option String) : Except CommandFault String :=
  match command with
  | .check schema json => do
    let s ← loadSchema schema content
    return if json then s.toJson.pretty 0 ++ "\n" else s.summary
  | .type input schema keyspace => do
    let t ← match schema with
      | some path => do
        let k ← findKeyspace (← loadSchema path content) keyspace
        ofSchema (k.parseType input)
      | none => ofValue (Ty.parse input)
    return t.describe.pretty 0 ++ "\n"
  | .calc c => do
    return (← c.eval).text ++ "\n"

end Command

end Cql
