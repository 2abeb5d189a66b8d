import OnePassSql.Bindings
import OnePassSql.NameMap
import OnePassSql.Settings
import OnePassSql.Table.Basic

/-! The state of a database, and the changes that a statement can make to it. -/

namespace OnePassSql

/-- The number of a database among others. -/
abbrev DatabaseId := Nat

/-- What statements read and change. `files` names the databases that can be attached. -/
structure Database where
  settings : Settings
  tables : NameMap Table
  bindings : Bindings
  userVersion : UInt64
  dropped : Bool
  attached : NameMap DatabaseId
  files : NameMap DatabaseId

/-- A single write to the database. -/
inductive Change where
  | putTable (name : String) (table : Table)
  | dropTable (name : String)
  | setVersion (version : UInt64)
  | attach (name : String) (database : DatabaseId)

namespace Database

/-- The table for statistics, which every database has unless the settings say otherwise. -/
def statTable : String := "sqlite_stat1"

/-- The columns of the table for statistics. -/
def statColumns : List Column :=
  ["tbl", "idx", "stat"].map fun name => .plain name .text

/-- A fresh database. -/
def create (settings : Settings) (files : NameMap DatabaseId) : Database where
  settings := settings
  tables :=
    if settings.systemTables then NameMap.empty.insert statTable ⟨statColumns, []⟩ else .empty
  bindings := .empty
  userVersion := settings.userVersion
  dropped := false
  attached := .empty
  files := files

/-- A fresh database with the standard settings, which can attach nothing. -/
def standard : Database := create .standard .empty

/-- The table of the name, or a fault. -/
def table (db : Database) (name : String) : Except Fault Table :=
  match db.tables.get? name with
  | some t => .ok t
  | none => .error (.semantic (.tableMissing name))

/-- Makes a change. -/
def change (db : Database) : Change → Database
  | .putTable name t => { db with tables := db.tables.insert name t }
  | .dropTable name => { db with tables := db.tables.erase name }
  | .setVersion version => { db with userVersion := version }
  | .attach name database => { db with attached := db.attached.insert name database }

end Database

end OnePassSql
