import OnePassSql.Database.Basic
import OnePassSql.Statement.Clause
import OnePassSql.Table.Edit

/-!
Statements being carried out. Reading, evaluating and changing the database go on in one pass, so a
fault can arise at any point of it. It leaves tokens, database and records as they are there:
nothing is taken back.
-/

namespace OnePassSql

/-- The state of a statement: its tokens, the database and the records behind linked rows. -/
structure Session (ρ : Type) where
  parser : Parser
  database : Database
  records : Records ρ

/-- A step of a statement. -/
abbrev Statement (ρ : Type) := EStateM Fault (Session ρ)

namespace Statement

variable {ρ : Type}

/-- A step of the parser alone. -/
def parsing {α : Type} (step : Parse α) : Statement ρ α := fun s =>
  match step s.parser with
  | .ok a p => .ok a { s with parser := p }
  | .error fault p => .error fault { s with parser := p }

instance : MonadLift Parse (Statement ρ) := ⟨parsing⟩

/-- The table of the name, or a fault. -/
def table (name : String) : Statement ρ Table := do
  settle ((← get).database.table name)

/-- The values bound to the parameters. -/
def bindings : Statement ρ Bindings := return (← get).database.bindings

/-- How many tokens are left. -/
def tokensLeft : Statement ρ Nat := return (← get).parser.ahead.length

/-- Makes a change. -/
def change (c : Change) : Statement ρ Unit :=
  modify fun s => { s with database := s.database.change c }

/-- The state with a stored table as an edit left it. -/
def withSheet (name : String) (s : Session ρ) (sheet : Sheet ρ) : Session ρ :=
  { s with database := s.database.change (.putTable name sheet.table), records := sheet.records }

/-- Works on a stored table in place. -/
def edit (name : String) (e : Edit ρ Unit) : Statement ρ Unit := do
  let t ← table name
  fun s =>
    match e ⟨t, s.records⟩ with
    | .ok _ sheet => .ok () (withSheet name s sheet)
    | .error fault sheet => .error fault (withSheet name s sheet)

end Statement

end OnePassSql
