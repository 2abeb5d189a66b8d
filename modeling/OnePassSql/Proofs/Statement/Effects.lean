import OnePassSql.Proofs.Statement.Atomicity

/-!
What a statement can make of the database. Its first words name what it can write to; whatever
comes behind them and however it ends, it makes at most one of five changes, and makes it there.
What is to be known of the database after a statement follows by cases on `Effect`.
-/

namespace OnePassSql

open Step

/-- What a statement can write to. -/
inductive Target where
  | nothing
  | table (name : String)
  | version
  | attached (name : String)
deriving DecidableEq, Repr

/-- What a change writes to. -/
def Change.target : Change → Target
  | .putTable name _ => .table name
  | .dropTable name => .table name
  | .setVersion _ => .version
  | .attach name _ => .attached name

/-! ## Targets -/

namespace Statement

open Parse

/-- The words for what can be created. -/
def createdKinds : List (String × ObjectKind) :=
  [("TABLE", .table), ("TRIGGER", .trigger), ("INDEX", .index), ("UNIQUE", .uniqueIndex),
    ("VIEW", .view)]

/-- The words for what can be dropped. -/
def droppedKinds : List (String × ObjectKind) :=
  [("TABLE", .table), ("INDEX", .index), ("VIEW", .view), ("TRIGGER", .trigger)]

/-- Reads what a statement can write to, behind its first word. -/
def targetOf : StatementKind → Parse Target
  | .create => do
    let _ ← acceptOne? (plainWords ["TEMP", "TEMPORARY"])
    match ← expectOne createdKinds with
    | .table =>
      let _ ← ifExists true
      let name ← expectName
      return .table name
    | _ => return .nothing
  | .drop => do
    let kind ← expectOne droppedKinds
    let _ ← ifExists false
    let name ← expectName
    return if kind = .table then .table name else .nothing
  | .insert => do
    orAction
    expect "INTO"
    let name ← expectName
    return .table name
  | .pragma => do
    if ← accept "user_version" then
      if ← accept "=" then return .version
      else return .nothing
    else return .nothing
  | .attach => do
    let _ ← accept "DATABASE"
    let _ ← expectName
    expect "AS"
    let name ← expectName
    return .attached name
  | .begin | .finish | .select | .update | .delete | .analyze | .describe => return .nothing

/-- Reads what a statement can write to. -/
def target : Parse Target := do
  let kind ← expectOne firstWords
  targetOf kind

/-- The target that is read, nothing if none can be. -/
def named (target : Parse Target) (p : Parser) : Target :=
  match target p with
  | .ok t _ => t
  | .error _ _ => .nothing

/-- The target of the statement in a text. -/
def targetIn (sql : String) : Target := named target (.ofText sql)

end Statement

namespace Parse

/-! ## Declared columns -/

theorem declare_fits {name : String} {type : ColumnType} {flags : ColumnFlags} {default : Value}
    {c : Column} (h : Column.declare name type flags default = .ok c) :
    c.default.fits c.type = true := by
  obtain ⟨v, hv, hc⟩ := Result.bind_eq_ok.mp h
  cases hc
  exact Value.fits_of_coerce hv

/-- What holds of every declared column holds of the columns that a definition is read as. -/
theorem columnDefinition_yields {P : Column → Prop}
    (h : ∀ {name type flags default c}, Column.declare name type flags default = .ok c → P c)
    (b : Bindings) : Yields P (columnDefinition b) := by
  refine yields_bind fun name => yields_bind fun _ => yields_bind fun type => yields_bind fun p =>
    yields_bind fun declared => ?_
  exact yields_settle fun c hc => h hc

theorem definitions_yields {P : Column → Prop}
    (h : ∀ {name type flags default c}, Column.declare name type flags default = .ok c → P c)
    (b : Bindings) (budget : Nat) :
    Yields (fun columns => ∀ c ∈ columns, P c) (definitions b budget) := by
  induction budget with
  | zero => exact yields_throw _
  | succ budget ih =>
      refine yields_bind fun isConstraint => ?_
      split
      · exact yields_bind fun _ => yields_pure fun c hc => nomatch hc
      · refine (columnDefinition_yields h b).bind fun c hc => yields_bind fun more => ?_
        split
        · refine ih.bind fun rest hrest => yields_pure ?_
          exact List.forall_mem_cons.mpr ⟨hc, hrest⟩
        · exact yields_pure (List.forall_mem_singleton.mpr hc)

end Parse

namespace Database

/-! ## Effects -/

/-- What a statement with the target can make of a database. -/
inductive Effect (db : Database) : Target → Database → Prop where
  | none {target} : Effect db target db
  | create {name columns} : (∀ c ∈ columns, c.default.fits c.type = true) →
      Effect db (.table name) (db.change (.putTable name ⟨columns, []⟩))
  | drop {name} : Effect db (.table name) (db.change (.dropTable name))
  | insert {name t cells} : db.tables.get? name = some t → cells ≠ [] →
      (∀ cell ∈ cells, t.Brings cell cell) →
      Effect db (.table name) (db.change (.putTable name (t.appendRow cells)))
  | setVersion {version} : Effect db .version (db.change (.setVersion version))
  | attach {file name id} : db.files.get? file = some id →
      Effect db (.attached name) (db.change (.attach name id))

theorem Effect.eq_of_nothing {db db' : Database} (h : db.Effect .nothing db') : db' = db := by
  cases h
  rfl

end Database

namespace Statement

open Parse Database

variable {ρ : Type} {α β : Type}

/-- Every run of the step, also one that faults, has an effect on the target that is read where it
starts. -/
def Effects (target : Parse Target) (x : Statement ρ α) : Prop :=
  ∀ s : Session ρ, s.database.Effect (named target s.parser) (stateAfter x s).database

theorem effects_of_sameDatabase {x : Statement ρ α} (h : Respects Session.SameDatabase x)
    (target : Parse Target) : Effects target x := by
  intro s
  rw [h s]
  exact .none

/-- What is read in both tells the same in both. -/
theorem effects_after_parsing {step : Parse α} {g : α → Parse Target} {f : α → Statement ρ β}
    (h : ∀ a, Effects (g a) (f a)) :
    Effects (step >>= g) ((liftM step : Statement ρ α) >>= f) := by
  intro s
  cases hs : step s.parser with
  | ok a p =>
      have hlift : (liftM step : Statement ρ α) s = .ok a { s with parser := p } :=
        parsing_eq_ok.mpr ⟨p, hs, rfl⟩
      rw [stateAfter_bind_of_ok hlift, named, bind_apply_ok hs]
      exact h a { s with parser := p }
  | error fault p =>
      have hlift : (liftM step : Statement ρ α) s = .error fault { s with parser := p } :=
        parsing_eq_error.mpr ⟨p, hs, rfl⟩
      rw [stateAfter_bind_of_error hlift]
      exact .none

variable {t : Target} {x : Statement ρ α} {f : α → Statement ρ β}

theorem effects_after_of_yields {P : α → Prop} (hx : Respects Session.SameDatabase x)
    (hy : Yields P x) (hf : ∀ a, P a → Effects (pure t) (f a)) : Effects (pure t) (x >>= f) := by
  intro s
  cases hs : x s with
  | ok a s' =>
      have hsame : s'.database = s.database := hx.ok hs
      rw [stateAfter_bind_of_ok hs, ← hsame]
      exact hf a (hy s a s' hs) s'
  | error fault s' =>
      have hsame : s'.database = s.database := hx.error hs
      rw [stateAfter_bind_of_error hs, hsame]
      exact .none

theorem effects_after (hx : Respects Session.SameDatabase x) (hf : ∀ a, Effects (pure t) (f a)) :
    Effects (pure t) (x >>= f) :=
  effects_after_of_yields (P := fun _ => True) hx (fun _ _ _ _ => trivial) fun a _ => hf a

/-- What follows and keeps the database adds no effect. -/
theorem Effects.bind {target : Parse Target} (hx : Effects target x)
    (hf : ∀ a, Respects Session.SameDatabase (f a)) : Effects target (x >>= f) := by
  intro s
  have heffect := hx s
  cases hs : x s with
  | ok a s' =>
      have hsame : (stateAfter (f a) s').database = s'.database := hf a s'
      rw [stateAfter_of_ok hs] at heffect
      rwa [stateAfter_bind_of_ok hs, hsame]
  | error fault s' =>
      rw [stateAfter_of_error hs] at heffect
      rwa [stateAfter_bind_of_error hs]

theorem effects_change {c : Change} (h : ∀ db : Database, db.Effect t (db.change c)) :
    Effects (pure t) (change c : Statement ρ Unit) :=
  fun s => h s.database

/-! ## Handlers -/

theorem yields_parsing {P : α → Prop} {step : Parse α} (h : Yields P step) :
    Yields P (liftM step : Statement ρ α) := by
  intro s a t hs
  obtain ⟨p, hp, -⟩ := parsing_eq_ok.mp hs
  exact h _ _ _ hp

theorem effects_createTable (name : String) (replace : Bool) :
    Effects (pure (.table name)) (do
      (expect "(" : Parse Unit)
      let columns ← definitions (← bindings) ((← tokensLeft) + 1)
      (expect ")" : Parse Unit)
      if (← get).database.tables.contains name && !replace then
        throw (.semantic (.tableExists name))
      change (.putTable name ⟨columns, []⟩) : Statement ρ Unit) := by
  refine effects_after (sameDatabase_parsing _) fun _ => effects_after respects_bindings
    fun b => effects_after respects_tokensLeft fun n =>
      effects_after_of_yields (sameDatabase_parsing _)
        (yields_parsing (definitions_yields declare_fits b (n + 1)))
        fun columns hcolumns => effects_after (sameDatabase_parsing _) fun _ =>
          effects_after respects_get fun s => ?_
  have hput : Effects (pure (.table name))
      (change (.putTable name ⟨columns, []⟩) : Statement ρ Unit) :=
    effects_change fun db => .create hcolumns
  split
  · exact effects_after (respects_throw _) fun _ => hput
  · exact hput

theorem effects_create : Effects (targetOf .create) (create : Statement ρ Unit) := by
  refine effects_after_parsing fun _ => effects_after_parsing fun kind => ?_
  cases kind with
  | table => exact effects_after_parsing fun replace => effects_after_parsing fun name =>
      effects_createTable name replace
  | _ => exact effects_of_sameDatabase (sameDatabase_parsing _) _

theorem effects_drop : Effects (targetOf .drop) (drop : Statement ρ Unit) := by
  refine effects_after_parsing fun kind => effects_after_parsing fun optional =>
    effects_after_parsing fun name => ?_
  split
  · refine effects_after respects_get fun s => (effects_change fun db => .drop).bind fun _ => ?_
    split
    · exact respects_throw _
    · exact respects_pure _
  · exact effects_of_sameDatabase (respects_pure _) _

theorem effects_pragma : Effects (targetOf .pragma) (pragma : Statement ρ Table) := by
  refine effects_after_parsing fun version => ?_
  cases version with
  | true =>
      refine effects_after_parsing fun assigned => ?_
      cases assigned with
      | true =>
          exact effects_after (sameDatabase_parsing _) fun n =>
            (effects_change fun db => .setVersion).bind fun _ => respects_pure _
      | false => exact effects_after respects_get fun s =>
          effects_of_sameDatabase (respects_pure _) _
  | false =>
      refine effects_after (sameDatabase_parsing _) fun info => ?_
      cases info with
      | true =>
          refine effects_of_sameDatabase ?_ _
          exact (sameDatabase_parsing _).bind fun _ => (sameDatabase_parsing _).bind fun name =>
            (sameDatabase_parsing _).bind fun _ => (respects_table name).bind fun _ =>
              respects_settle _
      | false => exact effects_of_sameDatabase (respects_throw _) _

theorem effects_attach : Effects (targetOf .attach) (attach : Statement ρ Unit) := by
  refine effects_after_parsing fun _ => effects_after_parsing fun file =>
    effects_after_parsing fun _ => effects_after_parsing fun name => ?_
  intro s
  rw [stateAfter_bind_of_ok (get_apply s)]
  split
  · next hfile => exact .attach hfile
  · exact .none

/-- The name that the target of an INSERT gives to its table is the one that it reads. -/
theorem named_insert {p q : Parser} {name : String} {columns : List String}
    (h : insertTarget p = .ok (name, columns) q) : named (targetOf .insert) p = .table name := by
  obtain ⟨_, p₁, haction, h⟩ := bind_eq_ok.mp h
  obtain ⟨_, p₂, hinto, h⟩ := bind_eq_ok.mp h
  obtain ⟨name', p₃, hname, h⟩ := bind_eq_ok.mp h
  obtain ⟨_, p₄, -, h⟩ := bind_eq_ok.mp h
  obtain ⟨columns', p₅, -, h⟩ := bind_eq_ok.mp h
  obtain ⟨_, p₆, -, h⟩ := bind_eq_ok.mp h
  obtain ⟨_, p₇, -, h⟩ := bind_eq_ok.mp h
  obtain ⟨_, p₈, -, h⟩ := bind_eq_ok.mp h
  cases h
  rw [named, targetOf, bind_apply_ok haction, bind_apply_ok hinto, bind_apply_ok hname, pure_apply]

variable [Record ρ]

theorem effects_insert : Effects (targetOf .insert) (insert : Statement ρ Table) := by
  intro s
  cases h : insert s with
  | error fault s' =>
      have hsame : s'.database = s.database := insert_faults _ _ _ h
      rw [stateAfter_of_error h, hsame]
      exact .none
  | ok answer s' =>
      obtain ⟨⟨name, cells⟩, s₁, hread, -⟩ := bind_eq_ok.mp h
      obtain ⟨-, t, columns, exprs, values, hreading, hputs⟩ := insertedRow_eq_ok hread
      obtain ⟨p, -, htarget, -⟩ := hreading.tokens
      have hsame : s₁.database = s.database := insertedRow_sameDatabase.ok hread
      rw [stateAfter_of_ok (insert_of_insertedRow hread hreading hputs), named_insert htarget,
        withSheet, hsame]
      exact .insert hreading.stored (hreading.cells_ne_nil hputs)
        (List.forall₂_same.mp (Table.brings_of_putsValue hputs))

/-- Every statement has an effect on its target, also one that faults. -/
theorem effects_handle (kind : StatementKind) :
    Effects (targetOf kind) (handle kind : Statement ρ Table) := by
  cases kind with
  | create => exact effects_create.bind fun _ => respects_pure _
  | drop => exact effects_drop.bind fun _ => respects_pure _
  | pragma => exact effects_pragma
  | begin => exact effects_of_sameDatabase (silent_sameDatabase (sameDatabase_parsing _)) _
  | finish => exact effects_of_sameDatabase (silent_sameDatabase (sameDatabase_parsing _)) _
  | insert => exact effects_insert
  | select => exact effects_of_sameDatabase (sameDatabase_of_reads Select.reads_select) _
  | update => exact effects_of_sameDatabase update_sameDatabase _
  | delete => exact effects_of_sameDatabase delete_sameDatabase _
  | attach => exact effects_attach.bind fun _ => respects_pure _
  | analyze => exact effects_of_sameDatabase (silent_sameDatabase (sameDatabase_parsing _)) _
  | describe => exact effects_of_sameDatabase describe_sameDatabase _

theorem effects_complete : Effects target (complete : Statement ρ Table) :=
  Effects.bind (effects_after_parsing effects_handle) fun _ =>
    (sameDatabase_parsing _).bind fun _ => respects_pure _

end Statement

/-! ## Queries -/

namespace Database

variable {ρ : Type} [Record ρ]

theorem database_query_of_open {db : Database} (h : db.dropped = false) (records : Records ρ)
    (sql : String) (params : List Value) :
    (db.query records sql params).database
      = (stateAfter Statement.complete ⟨.ofText sql, db.bindAll params, records⟩).database.unbind := by
  unfold query execute stateAfter
  rw [h]
  cases Statement.complete ⟨.ofText sql, db.bindAll params, records⟩ <;> rfl

theorem records_query_of_open {db : Database} (h : db.dropped = false) (records : Records ρ)
    (sql : String) (params : List Value) :
    (db.query records sql params).records
      = (stateAfter Statement.complete ⟨.ofText sql, db.bindAll params, records⟩).records := by
  unfold query execute stateAfter
  rw [h]
  cases Statement.complete ⟨.ofText sql, db.bindAll params, records⟩ <;> rfl

theorem query_of_dropped {db : Database} (h : db.dropped = true) (records : Records ρ)
    (sql : String) (params : List Value) :
    db.query records sql params = ⟨.error .dropped, db, records⟩ := by
  rw [query, if_pos h]

/-- An open database has what its statement made of it, without the parameters. -/
theorem exists_effect_of_query {db : Database} (h : db.dropped = false) (records : Records ρ)
    (sql : String) (params : List Value) :
    ∃ db', (db.bindAll params).Effect (Statement.targetIn sql) db' ∧
      (db.query records sql params).database = db'.unbind :=
  ⟨_, Statement.effects_complete ⟨.ofText sql, db.bindAll params, records⟩,
    database_query_of_open h records sql params⟩

/-- A statement without a target leaves nothing but the parameters' end behind. -/
theorem database_query_of_nothing {db : Database} (h : db.dropped = false) {sql : String}
    (htarget : Statement.targetIn sql = .nothing) (records : Records ρ) (params : List Value) :
    (db.query records sql params).database = db.unbind := by
  obtain ⟨db', heffect, hquery⟩ := exists_effect_of_query h records sql params
  rw [htarget] at heffect
  rw [hquery, heffect.eq_of_nothing]
  rfl

end Database

end OnePassSql
