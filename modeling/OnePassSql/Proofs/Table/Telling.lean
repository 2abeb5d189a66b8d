import Mathlib.Logic.Relation
import OnePassSql.Proofs.Result
import OnePassSql.Proofs.Step
import OnePassSql.Proofs.Table.Writing
import OnePassSql.Table.Union

/-!
What a union does to the records behind linked rows. The rows of the table that grows stay linked,
so their records are told of every column of the other table. The rows of the other table are copied
into rows that the grown table holds itself, so no record is written.
-/

namespace OnePassSql

open Step

variable {ρ : Type} [Record ρ]

/-! ## Telling records -/

namespace Records

/-- Records that were told of columns, one record at a time. -/
def Told : Records ρ → Records ρ → Prop :=
  Relation.ReflTransGen fun records later => ∃ id column v, later = records.addColumn id column v

instance : IsPreorder (Records ρ) Told where
  refl _ := .refl
  trans _ _ _ := Relation.ReflTransGen.trans

/-- Tells records, in the order of the list, of a column. -/
def tell (ids : List RecordId) (column : Nat) (v : Value) (records : Records ρ) : Records ρ :=
  ids.foldl (fun records id => records.addColumn id column v) records

/-- Tells records of columns that are numbered from `first` on. -/
def tellAll (ids : List RecordId) : Nat → List Column → Records ρ → Records ρ
  | _, [], records => records
  | first, c :: rest, records => tellAll ids (first + 1) rest (records.tell ids first c.default)

theorem told_tell (ids : List RecordId) (column : Nat) (v : Value) (records : Records ρ) :
    records.Told (records.tell ids column v) := by
  induction ids generalizing records with
  | nil => exact .refl
  | cons id rest ih => exact .head ⟨id, column, v, rfl⟩ (ih _)

theorem told_tellAll (ids : List RecordId) (first : Nat) (columns : List Column)
    (records : Records ρ) : records.Told (records.tellAll ids first columns) := by
  induction columns generalizing first records with
  | nil => exact .refl
  | cons c rest ih => exact (told_tell ids first c.default records).trans (ih _ _)

theorem getElem?_addColumn (records : Records ρ) (id other column : Nat) (v : Value) :
    (records.addColumn id column v).list[other]?
      = if id = other then records.list[other]?.map fun r => Record.addColumn r column v
        else records.list[other]? := by
  simp only [addColumn, List.getElem?_modify]
  split <;> simp

/-- Telling does not show in a record of a kind that goes on reading the same. -/
theorem Told.cell_eq {P : ρ → Prop} {records later : Records ρ} (h : records.Told later)
    (hkind : ∀ r column v, P r → P (Record.addColumn r column v))
    (hsame : ∀ r, P r → ∀ told v column,
      Record.get (Record.addColumn r told v) column = Record.get r column)
    {id : RecordId} {r : ρ} (hr : records.list[id]? = some r) (hP : P r) (column : Nat) :
    later.cell id column = Record.get r column := by
  obtain ⟨r', hr', -, hget⟩ : ∃ r', later.list[id]? = some r' ∧ P r' ∧
      Record.get r' column = Record.get r column := by
    induction h with
    | refl => exact ⟨r, hr, hP, rfl⟩
    | tail _ htell ih =>
        obtain ⟨other, told, v, rfl⟩ := htell
        obtain ⟨r', hr', hP', hget⟩ := ih
        rw [getElem?_addColumn, hr']
        split
        · exact ⟨_, rfl, hkind r' told v hP', (hsame r' hP' told v column).trans hget⟩
        · exact ⟨r', rfl, hP', hget⟩
  rw [cell, hr']
  exact hget

end Records

/-! ## New columns -/

namespace Table

/-- A new column leaves the linked rows linked and tells their records, in the order of the rows. -/
theorem extendRows_tells (column : Nat) (v : Value) (columns : List Column) (rows : List Row)
    (records : Records ρ) :
    (⟨columns, (extendRows column v rows records).1⟩ : Table).linkedRecords
        = (⟨columns, rows⟩ : Table).linkedRecords ∧
      (extendRows column v rows records).2
        = records.tell (⟨columns, rows⟩ : Table).linkedRecords column v := by
  induction rows generalizing records with
  | nil => exact ⟨rfl, rfl⟩
  | cons row rest ih =>
      cases row with
      | owned cells => exact ih records
      | linked id =>
          obtain ⟨hlinked, htold⟩ := ih (records.addColumn id column v)
          exact ⟨congrArg (id :: ·) hlinked, htold⟩

end Table

namespace Edit

theorem addColumns_tells (added : List Column) (t : Table) (records : Records ρ) :
    ∃ t', addColumns added ⟨t, records⟩
      = .ok ⟨⟩ ⟨t', records.tellAll t.linkedRecords t.columns.length added⟩ := by
  induction added generalizing t records with
  | nil => exact ⟨t, rfl⟩
  | cons c rest ih =>
      obtain ⟨hlinked, htold⟩ := Table.extendRows_tells t.columns.length c.default
        (t.columns ++ [c.fresh]) t.rows records
      obtain ⟨t', ht'⟩ := ih (t.addColumn records c.fresh).1 (t.addColumn records c.fresh).2
      rw [addColumns, bind_apply_ok (modify_apply _ _)]
      refine ⟨t', ht'.trans ?_⟩
      simp only [Table.addColumn, Column.fresh] at hlinked htold ⊢
      rw [hlinked, htold, List.length_append, List.length_singleton]
      rfl

end Edit

/-! ## Copied rows -/

namespace Table

/-- From row number `n` on the table holds its rows itself. -/
def OwnsFrom (t : Table) (n : Nat) : Prop := ∀ i id, n ≤ i → t.rows[i]? ≠ some (.linked id)

theorem ownsFrom_length (t : Table) : t.OwnsFrom t.rows.length := by
  intro i id hi hget
  rw [List.getElem?_eq_none hi] at hget
  cases hget

theorem OwnsFrom.growBy {t : Table} {n : Nat} (h : t.OwnsFrom n) (k : Nat) :
    (t.growBy k).OwnsFrom n := by
  induction k generalizing t with
  | zero => exact h
  | succ k ih =>
      refine ih fun i id hi hget => ?_
      rw [appendFresh, List.getElem?_append] at hget
      split at hget
      · exact h i id hi hget
      · cases List.mem_singleton.mp (List.mem_of_getElem? hget)

end Table

/-- A write to a row that the table holds itself touches no record. -/
theorem Sheet.ownsFrom_writeCell {s : Sheet ρ} {n row : Nat} (h : s.table.OwnsFrom n)
    (hrow : n ≤ row) (column : Nat) (v : Value) :
    (s.writeCell row column v).table.OwnsFrom n ∧
      (s.writeCell row column v).records = s.records := by
  unfold writeCell
  split
  · refine ⟨fun i id hi hget => ?_, rfl⟩
    rw [List.getElem?_set] at hget
    split at hget
    · split at hget <;> cases hget
    · exact h i id hi hget
  · next id hlinked => exact absurd hlinked (h row id hrow)
  · exact ⟨h, rfl⟩

namespace Edit

/-- If the rows from number `n` on are the table's own, they stay so and the records are as they
were. -/
def WritesOwn (n : Nat) (s t : Sheet ρ) : Prop :=
  s.table.OwnsFrom n → t.table.OwnsFrom n ∧ t.records = s.records

instance (n : Nat) : IsPreorder (Sheet ρ) (WritesOwn n) where
  refl _ h := ⟨h, rfl⟩
  trans _ _ _ hst htu h := ⟨(htu (hst h).1).1, (htu (hst h).1).2.trans (hst h).2⟩

theorem writesOwn_set {n row : Nat} (h : n ≤ row) (column : Nat) (v : Value) :
    Respects (WritesOwn n) (set row column v : Edit ρ Unit) := by
  intro s hs
  rcases set_cases s row column v with ⟨fault, -, hset⟩ | ⟨c, w, -, -, hset⟩
  · rw [stateAfter_of_error hset]
    exact ⟨hs, rfl⟩
  · rw [stateAfter_of_ok hset]
    exact Sheet.ownsFrom_writeCell (hs.growBy _) h column w

theorem writesOwn_copyCells (source : Table) {n target : Nat} (h : n ≤ target) (row index : Nat)
    (columns : List Column) :
    Respects (WritesOwn n) (copyCells source row target index columns : Edit ρ Unit) := by
  induction columns generalizing index with
  | nil => exact respects_pure _
  | cons c rest ih =>
      refine respects_get.bind fun s => ?_
      dsimp only
      split
      · exact (writesOwn_set h _ _).bind fun _ => ih (index + 1)
      · exact ih (index + 1)

/-- The records are the same in both. -/
def SameRecords (s t : Sheet ρ) : Prop := t.records = s.records

instance : IsPreorder (Sheet ρ) SameRecords where
  refl _ := rfl
  trans _ _ _ hst htu := Eq.trans htu hst

theorem sameRecords_copyRows (source : Table) (rows : List Nat) :
    Respects SameRecords (copyRows source rows : Edit ρ Unit) := by
  induction rows with
  | nil => exact respects_pure _
  | cons row rest ih =>
      intro s
      refine respects_bind_at (respects_get s) fun here t hget => ?_
      cases hget
      -- the row that is copied into is not there yet, so it will be the table's own
      have hcopied := writesOwn_copyCells source (Nat.le_refl s.table.rows.length) row 0
        source.columns s s.table.ownsFrom_length
      exact respects_bind_at hcopied.2 fun _ s' _ => ih s'

/-- The union with another table tells the records behind the linked rows of all columns of the
other, also if it faults, and changes no record otherwise. -/
theorem records_union (other t : Table) (records : Records ρ) :
    (stateAfter (union other) ⟨t, records⟩).records
      = records.tellAll t.linkedRecords t.columns.length other.columns := by
  obtain ⟨t', hadded⟩ := addColumns_tells other.columns t records
  rw [union, stateAfter_bind_of_ok hadded]
  exact sameRecords_copyRows _ _ _

end Edit

end OnePassSql
