import OnePassSql.Database.Query

/-!
Databases side by side. The first one is worked on; the others stand behind file names that it can
attach. All share the records that rows are linked to.
-/

namespace OnePassSql

/-- Databases by number, and the records behind their linked rows. -/
structure Workspace (ρ : Type) where
  databases : List Database
  records : Records ρ

namespace Workspace

variable {ρ : Type} [Record ρ]

/-- The number of the database that is worked on. -/
def mainId : DatabaseId := 0

/-- A fresh database that can attach the given ones by their names. -/
def create (settings : Settings) (files : List (String × Database)) (records : Records ρ) :
    Workspace ρ where
  databases :=
    .create settings (.ofList (files.zipIdx.map fun (file, i) => (file.1, i + 1)))
      :: files.map Prod.snd
  records := records

/-- The database that is worked on. -/
def main (w : Workspace ρ) : Database := w.databases.headD .standard

/-- Puts a database in the place of the one that is worked on. -/
def withMain (w : Workspace ρ) (db : Database) : Workspace ρ :=
  { w with databases := w.databases.set mainId db }

/-- Queries one of the databases, if there is one of the number. -/
def query? (w : Workspace ρ) (id : DatabaseId) (sql : String) (params : List Value) :
    Option (Except Fault Table × Workspace ρ) :=
  w.databases[id]?.map fun db =>
    let reply := db.query w.records sql params
    (reply.answer, ⟨w.databases.set id reply.database, reply.records⟩)

/-- Queries the database that is worked on. -/
def query (w : Workspace ρ) (sql : String) (params : List Value) :
    Except Fault Table × Workspace ρ :=
  let reply := w.main.query w.records sql params
  (reply.answer, { w.withMain reply.database with records := reply.records })

/-- Queries the database attached under the name, if there is one. -/
def queryAttached? (w : Workspace ρ) (name sql : String) :
    Option (Except Fault Table × Workspace ρ) := do
  let id ← w.main.attached.get? name
  w.query? id sql []

/-- The state that a list of statements leaves a fresh database in, whatever they answer. -/
def prepared (statements : List String) (records : Records ρ) : Database :=
  statements.foldl (fun db sql => (db.query records sql []).database) .standard

end Workspace

end OnePassSql
