import OnePassSql.Database.Basic
import OnePassSql.Table.Grid
import OnePassSql.Text.Quoted

/-! Descriptions of databases and statements: a full dump, and short forms for diagnosis. -/

namespace OnePassSql

namespace Database

variable {ρ : Type} [Record ρ]

/-- A table in the dump. -/
def dumpTable (records : Records ρ) (entry : String × Table) : String :=
  "\n" ++ entry.1 ++ ":\n" ++ entry.2.grid records

/-- The version and every table but the one for statistics, in the order of their names. -/
def dump (records : Records ρ) (db : Database) : String :=
  "Database\n========\nuser_version: " ++ toString db.userVersion.toNat ++ "\n"
    ++ String.join ((db.tables.entries.filter fun entry => entry.1 != statTable).map
      (dumpTable records))

/-- The state in one line. -/
def describe (db : Database) : String :=
  "Database \x7b tables: " ++ toString db.tables.size ++ ", user_version: "
    ++ toString db.userVersion.toNat ++ ", dropped: " ++ (if db.dropped then "true" else "false")
    ++ " \x7d"

end Database

/-- A statement kept to be run again. Nothing of it is read before it runs. -/
structure PreparedStatement where
  sql : String
deriving DecidableEq, Repr

namespace PreparedStatement

/-- The statement in one line, its text quoted. -/
def describe (p : PreparedStatement) : String :=
  "PreparedStatement \x7b sql: " ++ Text.quoted p.sql ++ " \x7d"

end PreparedStatement

end OnePassSql
