import OnePassSql.Proofs.Table.Writing
import OnePassSql.Table.Selection

/-!
Tables whose cells are of the kinds that their columns declare. Every value is brought to the type
of its column as it is written, but for the numbers that an automatic column gives: those are
integers in a column of whatever type.
-/

namespace OnePassSql

namespace Column

/-- What a cell of the column can be: null, of the kind of the column's type, or a number that an
automatic column gave. -/
def MayHold (c : Column) (v : Value) : Prop :=
  v.fits c.type = true ∨ c.flags.autoIncrement = true ∧ ∃ n, v = .integer n

theorem mayHold_advance {c : Column} {v : Value} : c.advance.MayHold v ↔ c.MayHold v := by
  simp [MayHold]

theorem mayHold_fresh {c : Column} {v : Value} : c.fresh.MayHold v ↔ c.MayHold v := Iff.rfl

/-- The cells of a column that do not fit its type are the numbers of an automatic column. -/
theorem MayHold.not_fits_iff {c : Column} {v : Value} (h : c.MayHold v) :
    ¬ v.fits c.type = true ↔
      c.flags.autoIncrement = true ∧ c.type ≠ .integer ∧ ∃ n, v = .integer n := by
  constructor
  · intro hfits
    obtain ⟨hauto, n, rfl⟩ := h.resolve_left hfits
    exact ⟨hauto, fun htype => hfits (Value.fits_integer_iff.mpr htype), n, rfl⟩
  · rintro ⟨-, htype, n, rfl⟩ hfits
    exact htype (Value.fits_integer_iff.mp hfits)

theorem mayHold_fill {c : Column} (h : c.default.fits c.type = true) : c.MayHold c.fill := by
  unfold fill
  split
  · next hauto => exact .inr ⟨hauto, _, rfl⟩
  · exact .inl h

end Column

namespace Table

/-- The defaults are of the kinds of their columns, and every row that the table holds itself has a
cell for each column that the column may hold. A table without columns holds no row. -/
structure WellTyped (t : Table) : Prop where
  defaults : ∀ c ∈ t.columns, c.default.fits c.type = true
  rows : ∀ cells, .owned cells ∈ t.rows → List.Forall₂ Column.MayHold t.columns cells
  columns_ne_nil : ∀ cells, .owned cells ∈ t.rows → t.columns ≠ []

theorem wellTyped_of_no_rows {columns : List Column}
    (h : ∀ c ∈ columns, c.default.fits c.type = true) : WellTyped ⟨columns, []⟩ :=
  ⟨h, fun _ hcells => (nomatch hcells), fun _ hcells => (nomatch hcells)⟩

/-! ## Writing rows -/

theorem mayHold_map_advance {columns : List Column} {cells : List Value} :
    List.Forall₂ Column.MayHold (columns.map Column.advance) cells ↔
      List.Forall₂ Column.MayHold columns cells := by
  simp only [List.forall₂_map_left_iff, Column.mayHold_advance]

theorem WellTyped.freshCells {t : Table} (h : t.WellTyped) :
    List.Forall₂ Column.MayHold t.columns t.freshCells := by
  rw [Table.freshCells, List.forall₂_map_right_iff, List.forall₂_same]
  exact fun c hc => Column.mayHold_fill (h.defaults c hc)

/-- A write that was brought to its column keeps the kinds of a row. -/
theorem mayHold_setCell {columns : List Column} {cells : List Value} {column : Nat} {c : Column}
    {v w : Value} (h : List.Forall₂ Column.MayHold columns cells) (hc : columns[column]? = some c)
    (hv : v.coerce c.type = .ok w) :
    List.Forall₂ Column.MayHold columns (setCell cells column w) := by
  have hcolumn : column < cells.length := h.length_eq ▸ (List.getElem?_eq_some_iff.mp hc).1
  rw [setCell_of_lt hcolumn]
  exact Result.forall₂_set h hc (.inl (Value.fits_of_coerce hv))

theorem mayHold_writeCells {t : Table} {cells : List Value} {writes : List (Nat × Value)}
    (h : List.Forall₂ Column.MayHold t.columns cells) (hwrites : ∀ w ∈ writes, t.Brings w w) :
    List.Forall₂ Column.MayHold t.columns (writeCells cells writes) := by
  induction writes generalizing cells with
  | nil => exact h
  | cons write rest ih =>
      rw [List.forall_mem_cons] at hwrites
      obtain ⟨-, c, hc, hv⟩ := hwrites.1
      exact ih (mayHold_setCell h hc hv) hwrites.2

theorem WellTyped.appendRow {t : Table} (h : t.WellTyped) {writes : List (Nat × Value)}
    (hwrites : ∀ w ∈ writes, t.Brings w w) (hne : t.columns ≠ []) :
    (t.appendRow writes).WellTyped := by
  refine ⟨?_, ?_, fun _ _ => by simpa using hne⟩
  · intro c hc
    obtain ⟨c', hc', rfl⟩ := List.mem_map.mp hc
    simpa using h.defaults c' hc'
  · intro cells hcells
    rw [appendRow_columns, mayHold_map_advance]
    rw [appendRow_rows, List.mem_append, List.mem_singleton] at hcells
    rcases hcells with hold | hnew
    · exact h.rows cells hold
    · cases hnew
      exact mayHold_writeCells h.freshCells hwrites

theorem WellTyped.growBy {t : Table} (h : t.WellTyped) (hne : t.columns ≠ []) (n : Nat) :
    (t.growBy n).WellTyped := by
  induction n generalizing t with
  | zero => exact h
  | succ n ih =>
      have hfresh : t.appendFresh.WellTyped := by
        have hnone : ∀ w ∈ ([] : List (Nat × Value)), t.Brings w w := fun w hw => nomatch hw
        exact h.appendRow hnone hne
      exact ih hfresh (by simpa [appendFresh] using hne)

/-! ## Adding columns -/

theorem WellTyped.addColumn {ρ : Type} [Record ρ] {t : Table} (h : t.WellTyped)
    (records : Records ρ) {c : Column} (hc : c.default.fits c.type = true) :
    (t.addColumn records c).1.WellTyped := by
  have hrows : ∀ (rows : List Row) (records : Records ρ) (column : Nat) (cells : List Value),
      .owned cells ∈ (extendRows column c.default rows records).1 →
        ∃ old, .owned old ∈ rows ∧ cells = old ++ [c.default] := by
    intro rows
    induction rows with
    | nil => exact fun records column cells hcells => (nomatch hcells)
    | cons row rest ih =>
        intro records column cells hcells
        cases row with
        | owned old =>
            rcases List.mem_cons.mp hcells with heq | hrest
            · exact ⟨old, List.mem_cons_self, Row.owned.inj heq⟩
            · obtain ⟨old', hold, heq⟩ := ih _ _ _ hrest
              exact ⟨old', List.mem_cons_of_mem _ hold, heq⟩
        | linked id =>
            rcases List.mem_cons.mp hcells with heq | hrest
            · cases heq
            · obtain ⟨old', hold, heq⟩ := ih _ _ _ hrest
              exact ⟨old', List.mem_cons_of_mem _ hold, heq⟩
  refine ⟨?_, fun cells hcells => ?_, fun _ _ => by simp [Table.addColumn]⟩
  · intro d hd
    rcases List.mem_append.mp hd with hold | hnew
    · exact h.defaults d hold
    · exact List.mem_singleton.mp hnew ▸ hc
  · obtain ⟨old, hold, rfl⟩ := hrows t.rows records t.columns.length cells hcells
    exact List.rel_append (h.rows old hold) (.cons (.inl hc) .nil)

/-! ## Linking rows -/

theorem WellTyped.linkRow {t : Table} (h : t.WellTyped) (record : RecordId) :
    (t.linkRow record).WellTyped := by
  have hold : ∀ cells, .owned cells ∈ (t.linkRow record).rows → .owned cells ∈ t.rows := by
    intro cells hcells
    exact (List.mem_append.mp hcells).resolve_right fun hnew => by
      cases List.mem_singleton.mp hnew
  exact ⟨h.defaults, fun cells hcells => h.rows cells (hold cells hcells),
    fun cells hcells => h.columns_ne_nil cells (hold cells hcells)⟩

theorem WellTyped.linkRows {t : Table} (h : t.WellTyped) (records : List RecordId) :
    (records.foldl Table.linkRow t).WellTyped := by
  induction records generalizing t with
  | nil => exact h
  | cons record rest ih => exact ih (h.linkRow record)

/-! ## Selecting -/

theorem mayHold_coerceCells {columns : List Column} {values cells : List Value}
    (h : coerceCells columns values = .ok cells) (hlength : columns.length = values.length) :
    List.Forall₂ Column.MayHold columns cells := by
  induction columns generalizing values cells with
  | nil =>
      cases h
      exact .nil
  | cons c columns ih =>
      cases values with
      | nil => cases hlength
      | cons v values =>
          obtain ⟨w, hw, hrest⟩ := Result.bind_eq_ok.mp h
          obtain ⟨rest, hcells, hgiven⟩ := Result.bind_eq_ok.mp hrest
          cases hgiven
          exact .cons (.inl (Value.fits_of_coerce hw)) (ih hcells (Nat.succ.inj hlength))

theorem wellTyped_ofRows {columns : List Column} {rows : List (List Value)} {t : Table}
    (h : ofRows columns rows = .ok t) (hdefaults : ∀ c ∈ columns, c.default.fits c.type = true)
    (hlength : ∀ row ∈ rows, columns.length = row.length) : t.WellTyped := by
  obtain ⟨cells, hcells, hgiven⟩ := Result.bind_eq_ok.mp h
  cases hgiven
  have hforall := Result.mapM_eq_ok.mp hcells
  have hmem : ∀ row, .owned row ∈ cells.map Row.owned → columns ≠ [] ∧ ∃ values ∈ rows,
      coerceCells columns values = .ok row := by
    intro row hrow
    obtain ⟨row', hrow', heq⟩ := List.mem_map.mp hrow
    cases heq
    obtain ⟨i, hi⟩ := List.mem_iff_getElem?.mp hrow'
    obtain ⟨values, hvalues, hok⟩ := Result.exists_left_of_forall₂ hforall hi
    cases columns with
    | nil => simp at hvalues
    | cons c columns => exact ⟨by simp, values, List.mem_of_getElem? hvalues, hok⟩
  refine ⟨hdefaults, fun row hrow => ?_, fun row hrow => (hmem row hrow).1⟩
  obtain ⟨-, values, hvalues, hok⟩ := hmem row hrow
  exact mayHold_coerceCells hok (hlength values hvalues)

/-- What is selected is well typed: a projection whatever it is made from, all columns if the table
is well typed. -/
theorem wellTyped_extract {ρ : Type} [Record ρ] {records : Records ρ} {t t' : Table}
    {columns : Option (List Expr)} {predicate : Option Expr} (h : columns = none → t.WellTyped)
    (hextract : t.extract records columns predicate = .ok t') : t'.WellTyped := by
  obtain ⟨matched, -, hselect⟩ := Result.bind_eq_ok.mp hextract
  cases columns with
  | none =>
      cases hselect
      have ht := h rfl
      have hold : ∀ cells, .owned cells ∈ matched.filterMap (fun row => t.rows[row]?) →
          .owned cells ∈ t.rows := by
        intro cells hcells
        obtain ⟨row, -, hrow⟩ := List.mem_filterMap.mp hcells
        exact List.mem_of_getElem? hrow
      refine ⟨fun c hc => ?_, fun cells hcells => ?_, fun cells hcells => ?_⟩
      · obtain ⟨c', hc', rfl⟩ := List.mem_map.mp hc
        exact ht.defaults c' hc'
      · simpa only [List.forall₂_map_left_iff, Column.mayHold_fresh]
          using ht.rows cells (hold cells hcells)
      · simpa using ht.columns_ne_nil cells (hold cells hcells)
  | some exprs =>
      obtain ⟨types, htypes, hvalues⟩ := Result.bind_eq_ok.mp hselect
      obtain ⟨values, hvalues, hrows⟩ := Result.bind_eq_ok.mp hvalues
      refine wellTyped_ofRows hrows (fun c hc => ?_) fun row hrow => ?_
      · obtain ⟨⟨⟨e, type⟩, x⟩, -, rfl⟩ := List.mem_map.mp hc
        rfl
      · obtain ⟨i, hi⟩ := List.mem_iff_getElem?.mp hrow
        obtain ⟨y, -, hproject⟩ := Result.exists_left_of_forall₂ (Result.mapM_eq_ok.mp hvalues) hi
        have hrowLength := (Result.mapM_eq_ok.mp hproject).length_eq
        have htypesLength := (Result.mapM_eq_ok.mp htypes).length_eq
        simp [projectedColumns, ← htypesLength, hrowLength]

end Table

/-- A value brought to its column keeps a table well typed in whatever row it is written. -/
theorem Sheet.wellTyped_writeCell {ρ : Type} [Record ρ] {s : Sheet ρ} {column : Nat} {c : Column}
    {v w : Value} (h : s.table.WellTyped) (hc : s.table.columns[column]? = some c)
    (hv : v.coerce c.type = .ok w) (row : Nat) : (s.writeCell row column w).table.WellTyped := by
  unfold writeCell
  split
  · next cells hcells =>
      have hne : s.table.columns ≠ [] := List.ne_nil_of_mem (List.mem_of_getElem? hc)
      refine ⟨h.defaults, fun other hother => ?_, fun _ _ => hne⟩
      rcases List.mem_or_eq_of_mem_set hother with hold | hnew
      · exact h.rows other hold
      · cases hnew
        exact Table.mayHold_setCell (h.rows cells (List.mem_of_getElem? hcells)) hc hv
  · exact h
  · exact h

namespace Edit

open Step

variable {ρ : Type} [Record ρ]

/-! ## Editing -/

/-- If the table is well typed before, it is after. -/
def KeepsTypes (s t : Sheet ρ) : Prop := s.table.WellTyped → t.table.WellTyped

instance : IsPreorder (Sheet ρ) KeepsTypes where
  refl _ := id
  trans _ _ _ hst htu := htu ∘ hst

theorem keepsTypes_set (row column : Nat) (v : Value) :
    Respects KeepsTypes (set row column v : Edit ρ Unit) := by
  intro s hs
  rcases set_cases s row column v with ⟨fault, -, hset⟩ | ⟨c, w, hc, hv, hset⟩
  · rw [stateAfter_of_error hset]
    exact hs
  · rw [stateAfter_of_ok hset]
    have hne : s.table.columns ≠ [] := List.ne_nil_of_mem (List.mem_of_getElem? hc)
    have hgrown : (s.growTo (row + 1)).table.columns[column]?
        = some (c.advanceBy (row + 1 - s.table.rows.length)) := by
      simp [Sheet.growTo, Table.growBy_columns, hc]
    exact Sheet.wellTyped_writeCell (hs.growBy hne _) hgrown ((c.advanceBy_type _).symm ▸ hv) row

end Edit

end OnePassSql
