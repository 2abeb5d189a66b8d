import OnePassSql.Statement.Create
import OnePassSql.Statement.Insert
import OnePassSql.Statement.Inspect
import OnePassSql.Statement.Select

/-! One statement, from its first word up to its end. -/

namespace OnePassSql

/-- The statements that are told apart by their first word. -/
inductive StatementKind where
  | create | drop | pragma | begin | finish | insert | select | update | delete | attach | analyze
  | describe
deriving DecidableEq, Repr

namespace Statement

open Parse

variable {ρ : Type} [Record ρ]

/-- The first words of statements. -/
def firstWords : List (String × StatementKind) :=
  [("CREATE", .create), ("DROP", .drop), ("PRAGMA", .pragma), ("BEGIN", .begin), ("END", .finish),
    ("COMMIT", .finish), ("ROLLBACK", .finish), ("INSERT", .insert), ("SELECT", .select),
    ("UPDATE", .update), ("DELETE", .delete), ("ATTACH", .attach), ("ANALYZE", .analyze),
    ("DESC", .describe)]

/-- Answers nothing. -/
def silent (act : Statement ρ Unit) : Statement ρ Table := do
  act
  return .empty

/-- What is done for each kind of statement. -/
def handlers : List (StatementKind × Statement ρ Table) :=
  [(.create, silent create), (.drop, silent drop), (.pragma, pragma),
    (.begin, silent beginTransaction), (.finish, silent endTransaction), (.insert, insert),
    (.select, Select.select), (.update, update), (.delete, delete), (.attach, silent attach),
    (.analyze, silent analyze), (.describe, describe)]

/-- Carries out the statement whose first word was taken. -/
def handle (kind : StatementKind) : Statement ρ Table :=
  match handlers.lookup kind with
  | some handler => handler
  | none => throw (.unsupported .statementKeyword)

/-- Carries out a statement, but for the check that it ends there. -/
def run : Statement ρ Table := do
  let kind ← expectOne firstWords
  handle kind

/-- Carries out a statement. Its end is looked for when everything is done, so a refused end comes
too late to undo it. -/
def complete : Statement ρ Table := do
  let t ← run
  expectEnd
  return t

end Statement

end OnePassSql
