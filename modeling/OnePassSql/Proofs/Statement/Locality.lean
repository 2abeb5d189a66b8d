import OnePassSql.Proofs.Statement.Effects

/-!
What an INSERT does hangs on its tokens, the parameters and the table that it names, and on nothing
else in the database. So one answer and one write are those of all databases that agree there.
-/

namespace OnePassSql

open Step

namespace Database

/-- The databases have the same parameters and, if the target is a table, the same table there. -/
structure AgreesAt (target : Target) (db db' : Database) : Prop where
  bindings : db'.bindings = db.bindings
  dropped : db'.dropped = db.dropped
  table (name : String) : target = .table name → db'.tables.get? name = db.tables.get? name

theorem AgreesAt.refl (target : Target) (db : Database) : db.AgreesAt target db :=
  ⟨rfl, rfl, fun _ _ => rfl⟩

/-- The database with a table put under its name, if there is one. -/
def store (db : Database) : Option (String × Table) → Database
  | none => db
  | some (name, t) => db.change (.putTable name t)

end Database

/-- The sessions have the same tokens left, and their databases agree at the target. -/
structure Session.AgreesAt {ρ : Type} (target : Target) (s s' : Session ρ) : Prop where
  parser : s'.parser = s.parser
  database : s.database.AgreesAt target s'.database

namespace Statement

open Parse

variable {ρ : Type} {α : Type}

/-! ## The row of an INSERT -/

/-- Reads the row of an INSERT against a database. -/
def rowReading (db : Database) : Parse (String × List (Nat × Value)) := do
  let (name, columns) ← insertTarget
  let t ← settle (db.table name)
  let (cells, left) ← insertedCells db.bindings t name columns
  expect ")"
  if !left.isEmpty then throw (.semantic .tooFewValues)
  return (name, cells)

/-- The row of an INSERT is read against the database that the statement starts in. -/
theorem insertedRow_eq_rowReading (s : Session ρ) :
    insertedRow s = (liftM (rowReading s.database) : Statement ρ _) s := by
  rw [rowReading, parsing_bind]
  refine bind_congr rfl fun target s₁ htarget => ?_
  obtain ⟨p, -, rfl⟩ := parsing_eq_ok.mp htarget
  obtain ⟨name, columns⟩ := target
  dsimp only
  rw [parsing_bind]
  refine bind_congr ?_ fun t s₂ htable => ?_
  · change settle (s.database.table name) _ = _
    cases s.database.table name <;> rfl
  · obtain ⟨rfl, -⟩ := table_eq_ok htable
    rw [bind_apply_ok (bindings_apply _), parsing_bind]
    refine bind_congr rfl fun values s₃ _ => ?_
    obtain ⟨cells, left⟩ := values
    dsimp only
    rw [parsing_bind]
    refine bind_congr rfl fun _ s₄ _ => ?_
    cases left <;> rfl

/-- Of the database only the parameters and the named table are looked at. -/
theorem rowReading_congr {db db' : Database} {p : Parser}
    (h : db.AgreesAt (named (targetOf .insert) p) db') : rowReading db' p = rowReading db p := by
  refine bind_congr rfl fun target q htarget => ?_
  obtain ⟨name, columns⟩ := target
  have htable : db'.table name = db.table name := by
    unfold Database.table
    rw [h.table name (named_insert htarget)]
  dsimp only
  rw [htable, h.bindings]

/-- Sessions that agree read the same row. -/
theorem insertedRow_of_agreesAt {s s' : Session ρ}
    (h : s.AgreesAt (named (targetOf .insert) s.parser) s') :
    insertedRow s' = (liftM (rowReading s.database) : Statement ρ _) s' := by
  rw [insertedRow_eq_rowReading]
  change parsing (rowReading s'.database) s' = parsing (rowReading s.database) s'
  unfold parsing
  rw [h.parser, rowReading_congr h.database]

/-! ## Steps that hang on one target -/

/-- In all sessions that agree with this one at the target the step gives the same, leaves the same
tokens, and stores the same table under the target's name, if any. -/
def LocalAt (target : Target) (x : Statement ρ α) (s : Session ρ) : Prop :=
  ∃ (answer : Except Fault α) (p : Parser) (write : Option (String × Table)),
    (∀ entry ∈ write, target = .table entry.1) ∧
      ∀ s' : Session ρ, s.AgreesAt target s' →
        x s' = settle answer { s' with parser := p, database := s'.database.store write }

variable [Record ρ]

theorem localAt_insert (s : Session ρ) :
    LocalAt (named (targetOf .insert) s.parser) (insert : Statement ρ Table) s := by
  cases hrow : rowReading s.database s.parser with
  | error fault q =>
      refine ⟨.error fault, q, none, by simp, fun s' hagrees => ?_⟩
      have herror : insertedRow s' = .error fault { s' with parser := q } :=
        (insertedRow_of_agreesAt hagrees).trans
          (parsing_eq_error.mpr ⟨q, hagrees.parser ▸ hrow, rfl⟩)
      exact bind_eq_error.mpr (.inl herror)
  | ok row q =>
      obtain ⟨name, cells⟩ := row
      have hok : ∀ s' : Session ρ, s.AgreesAt (named (targetOf .insert) s.parser) s' →
          insertedRow s' = .ok (name, cells) { s' with parser := q } :=
        fun s' hagrees => (insertedRow_of_agreesAt hagrees).trans
          (parsing_eq_ok.mpr ⟨q, hagrees.parser ▸ hrow, rfl⟩)
      obtain ⟨-, t, columns, exprs, values, hreading, -⟩ := insertedRow_eq_ok (hok s ⟨rfl, .refl _ _⟩)
      obtain ⟨p, -, htarget, -⟩ := hreading.tokens
      have hnamed := named_insert htarget
      refine ⟨.ok (.report "inserted_rows" 1), q, some (name, t.appendRow cells), by simp [hnamed],
        fun s' hagrees => ?_⟩
      -- the row goes to the table that both have
      obtain ⟨-, t', columns', exprs', values', hreading', hputs'⟩ :=
        insertedRow_eq_ok (hok s' hagrees)
      obtain rfl : t = t' := by
        have hsame := hagrees.database.table name hnamed
        rw [hreading.stored, hreading'.stored] at hsame
        exact (Option.some.inj hsame).symm
      rw [insert_of_insertedRow (hok s' hagrees) hreading' hputs']
      rfl

theorem localAt_run {s : Session ρ} {p : Parser}
    (hword : expectOne firstWords s.parser = .ok .insert p) :
    LocalAt (named target s.parser) (run : Statement ρ Table) s := by
  have hnamed : named target s.parser = named (targetOf .insert) p := by
    rw [named, target, bind_apply_ok hword, named]
  obtain ⟨answer, q, write, htarget, hinsert⟩ := localAt_insert { s with parser := p }
  rw [hnamed]
  refine ⟨answer, q, write, htarget, fun s' hagrees => ?_⟩
  have hlift : (liftM (expectOne firstWords) : Statement ρ StatementKind) s'
      = .ok .insert { s' with parser := p } :=
    parsing_eq_ok.mpr ⟨p, hagrees.parser ▸ hword, rfl⟩
  rw [run, bind_apply_ok hlift]
  exact hinsert { s' with parser := p } ⟨rfl, hagrees.database⟩

/-- The end of the statement hangs on the tokens alone. -/
theorem localAt_complete {s : Session ρ} {p : Parser}
    (hword : expectOne firstWords s.parser = .ok .insert p) :
    LocalAt (named target s.parser) (complete : Statement ρ Table) s := by
  obtain ⟨answer, q, write, htarget, hrun⟩ := localAt_run hword
  cases answer with
  | error fault =>
      exact ⟨.error fault, q, write, htarget, fun s' hagrees =>
        bind_eq_error.mpr (.inl (hrun s' hagrees))⟩
  | ok t =>
      cases hend : expectEnd q with
      | error fault r =>
          refine ⟨.error fault, r, write, htarget, fun s' hagrees => ?_⟩
          rw [complete, bind_apply_ok (hrun s' hagrees)]
          exact bind_eq_error.mpr (.inl (parsing_eq_error.mpr ⟨r, hend, rfl⟩))
      | ok _ r =>
          refine ⟨.ok t, r, write, htarget, fun s' hagrees => ?_⟩
          rw [complete, bind_apply_ok (hrun s' hagrees)]
          exact bind_eq_ok.mpr ⟨_, _, parsing_eq_ok.mpr ⟨r, hend, rfl⟩, rfl⟩

end Statement

end OnePassSql
