import OnePassSql.Json.Basic
import OnePassSql.Json.Reader

/-! Settings of a fresh database, and their JSON form. -/

namespace OnePassSql

/-- What a fresh database looks like. -/
structure Settings where
  /-- Register the table for statistics. -/
  systemTables : Bool
  /-- What `PRAGMA user_version` tells before any assignment. -/
  userVersion : UInt64
deriving DecidableEq, Repr

namespace Settings

/-- The settings used unless others are given. -/
def standard : Settings := ⟨true, 0⟩

/-- The JSON form. -/
def toJson (s : Settings) : Json :=
  .object [("create_system_tables", .bool s.systemTables),
    ("initial_user_version", .integer s.userVersion.toNat)]

/-- A 64-bit word from a JSON number. -/
def wordOfNode? (node : Json.Node) : Option UInt64 := do
  let n ← node.int?
  if 0 ≤ n then return UInt64.ofNat n.toNat else none

/-- The nodes under a key. Every key must be a text. -/
def nodesAt? (name : String) (members : List (List Json.Piece × Json.Node)) :
    Option (List Json.Node) := do
  let named ← members.mapM fun member => do
    let key ← Json.string? member.1
    return (key, member.2)
  return (named.filter fun member => member.1 == name).map Prod.snd

/-- Reads the JSON form. Both members are there once, others may stand beside them; or the two
values stand in an array. -/
def ofNode? : Json.Node → Option Settings
  | .object members => do
    match ← nodesAt? "create_system_tables" members, ← nodesAt? "initial_user_version" members with
    | [tables], [version] => return ⟨← tables.bool?, ← wordOfNode? version⟩
    | _, _ => none
  | .array [tables, version] => do return ⟨← tables.bool?, ← wordOfNode? version⟩
  | _ => none

/-- Reads the JSON form from text. -/
def ofJsonText? (s : String) : Option Settings := do
  let node ← Json.read? s
  ofNode? node

end Settings

end OnePassSql
