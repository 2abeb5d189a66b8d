import OnePassSql.Statement.Run

/-!
Queries: one statement with its parameters, from the state before it to the state after it. The
parameters are bound for the statement alone.
-/

namespace OnePassSql

/-- What a query answers, with the database and the records as it leaves them. -/
structure Reply (ρ : Type) where
  answer : Except Fault Table
  database : Database
  records : Records ρ

namespace Database

variable {ρ : Type} [Record ρ]

/-- Carries out one statement. What it changed before a fault stays changed. -/
def execute (db : Database) (records : Records ρ) (sql : String) : Reply ρ :=
  match Statement.complete ⟨Parser.ofText sql, db, records⟩ with
  | .ok t s => ⟨.ok t, s.database, s.records⟩
  | .error fault s => ⟨.error fault, s.database, s.records⟩

/-- Binds values to the parameters 0, 1, 2, … -/
def bindAll (db : Database) (params : List Value) : Database :=
  { db with bindings := db.bindings.bindFrom 0 params }

/-- Forgets the values of all parameters. -/
def unbind (db : Database) : Database := { db with bindings := .empty }

/-- Carries out one statement with parameters. Parse and semantic faults are reported together
with the statement. -/
def query (db : Database) (records : Records ρ) (sql : String) (params : List Value) : Reply ρ :=
  if db.dropped then ⟨.error .dropped, db, records⟩
  else
    let reply := (db.bindAll params).execute records sql
    ⟨reply.answer.mapError (Fault.annotate sql), reply.database.unbind, reply.records⟩

/-- Closes the database for good. Its tables and what it attached are gone. -/
def close (db : Database) : Database :=
  { db with dropped := true, tables := .empty, attached := .empty }

/-- Links rows of a table to records, and counts them. -/
def linkRows (db : Database) (name : String) (records : List RecordId) :
    Except Fault (Nat × Database) :=
  if db.dropped then .error .dropped
  else do
    let t ← db.table name
    let linked := records.foldl Table.linkRow t
    return (records.length, { db with tables := db.tables.insert name linked })

end Database

end OnePassSql
