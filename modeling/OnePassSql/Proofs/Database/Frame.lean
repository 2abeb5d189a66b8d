import OnePassSql.Proofs.Statement.Effects

/-! A query leaves everything as it was but for the target that its first words name. -/

namespace OnePassSql.Database

/-- The databases agree but for the target. -/
structure SameBut (target : Target) (db db' : Database) : Prop where
  tables : (∀ name, target ≠ .table name) → db'.tables = db.tables
  otherTables (name : String) : target ≠ .table name →
    db'.tables.get? name = db.tables.get? name
  userVersion : target ≠ .version → db'.userVersion = db.userVersion
  attached : (∀ name, target ≠ .attached name) → db'.attached = db.attached
  otherAttached (name : String) : target ≠ .attached name →
    db'.attached.get? name = db.attached.get? name
  dropped : db'.dropped = db.dropped
  settings : db'.settings = db.settings
  files : db'.files = db.files

theorem SameBut.refl (target : Target) (db : Database) : db.SameBut target db :=
  ⟨fun _ => rfl, fun _ _ => rfl, fun _ => rfl, fun _ => rfl, fun _ _ => rfl, rfl, rfl, rfl⟩

theorem sameBut_change (db : Database) (c : Change) : db.SameBut c.target (db.change c) := by
  cases c with
  | putTable name t =>
      refine ⟨fun h => absurd rfl (h name), fun other h => ?_, fun _ => rfl, fun _ => rfl,
        fun _ _ => rfl, rfl, rfl, rfl⟩
      have hne : other ≠ name := fun heq => h (heq ▸ rfl)
      rw [change, NameMap.get?_insert, if_neg hne]
  | dropTable name =>
      refine ⟨fun h => absurd rfl (h name), fun other h => ?_, fun _ => rfl, fun _ => rfl,
        fun _ _ => rfl, rfl, rfl, rfl⟩
      have hne : other ≠ name := fun heq => h (heq ▸ rfl)
      rw [change, NameMap.get?_erase, if_neg hne]
  | setVersion version =>
      exact ⟨fun _ => rfl, fun _ _ => rfl, fun h => absurd rfl h, fun _ => rfl, fun _ _ => rfl,
        rfl, rfl, rfl⟩
  | attach name id =>
      refine ⟨fun _ => rfl, fun _ _ => rfl, fun _ => rfl, fun h => absurd rfl (h name),
        fun other h => ?_, rfl, rfl, rfl⟩
      have hne : other ≠ name := fun heq => h (heq ▸ rfl)
      rw [change, NameMap.get?_insert, if_neg hne]

theorem Effect.sameBut {db db' : Database} {target : Target} (h : db.Effect target db') :
    db.SameBut target db' := by
  cases h with
  | none => exact .refl _ _
  | create _ => exact sameBut_change db (.putTable _ _)
  | drop => exact sameBut_change db (.dropTable _)
  | insert _ _ _ => exact sameBut_change db (.putTable _ _)
  | setVersion => exact sameBut_change db (.setVersion _)
  | attach _ => exact sameBut_change db (.attach _ _)

variable {ρ : Type} [Record ρ]

/-- A query that succeeds or fails changes nothing but the target of its statement. -/
theorem query_changes_target (db : Database) (records : Records ρ) (sql : String)
    (params : List Value) :
    db.SameBut (Statement.targetIn sql) (db.query records sql params).database := by
  cases hdropped : db.dropped with
  | true =>
      rw [query_of_dropped hdropped]
      exact .refl _ _
  | false =>
      obtain ⟨db', heffect, hquery⟩ := exists_effect_of_query hdropped records sql params
      rw [hquery]
      -- binding and forgetting the parameters shows in no field that is compared
      exact { heffect.sameBut with }

example : Statement.targetIn "INSERT OR REPLACE INTO t (a) VALUES (1" = .table "t" := by
  decide +kernel

example : Statement.targetIn "PRAGMA user_version" = .nothing := by decide +kernel

end OnePassSql.Database
