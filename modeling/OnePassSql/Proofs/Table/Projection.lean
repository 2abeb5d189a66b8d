import OnePassSql.Proofs.Expr.Typing
import OnePassSql.Proofs.Outcome
import OnePassSql.Table.Selection

/-!
Projections. Once the predicate and the expressions have been evaluated nothing else can go wrong,
for what an expression evaluates to can be brought to the type of its column; and the table that
comes out holds just these values.
-/

namespace OnePassSql.Table

open Result

variable {ρ : Type} [Record ρ]

/-- The table holds all its rows itself, and every cell is null or of the kind of its column. -/
def Conforms (t : Table) : Prop :=
  ∀ row ∈ t.rows, ∃ cells, row = .owned cells ∧
    ∀ (x : Nat) (c : Column) (v : Value), t.columns[x]? = some c → cells[x]? = some v →
      v.fits c.type = true

/-- The predicate is the integer one on the row, if there is a predicate. -/
def Matches (records : Records ρ) (t : Table) (predicate : Option Expr) (row : Nat) : Prop :=
  ∀ e ∈ predicate, e.eval (t.rowScope records row) = .ok (.integer 1)

/-- What a projection can fault with: the first fault of the predicate, the fault of an expression on
a row that matches, or that of its type. -/
inductive ProjectionFault (records : Records ρ) (t : Table) (exprs : List Expr)
    (predicate : Option Expr) : Fault → Prop where
  | predicate {e : Expr} {row : Nat} {fault : Fault} : predicate = some e → row < t.rows.length →
      (∀ before < row, ∃ v, e.eval (t.rowScope records before) = .ok v) →
      e.eval (t.rowScope records row) = .error fault →
      ProjectionFault records t exprs predicate fault
  | type {e : Expr} {fault : Fault} : e ∈ exprs → e.staticType t.scope = .error fault →
      ProjectionFault records t exprs predicate fault
  | value {e : Expr} {row : Nat} {fault : Fault} : e ∈ exprs → row < t.rows.length →
      t.Matches records predicate row → e.eval (t.rowScope records row) = .error fault →
      ProjectionFault records t exprs predicate fault

/-- The type of the column for `e`: its static type, but REAL instead of INTEGER if it is a real on
one of the rows. -/
def HasColumnType (records : Records ρ) (t : Table) (rows : List Nat) (e : Expr)
    (type : ColumnType) : Prop :=
  ∃ own, e.staticType t.scope = .ok own ∧
    ((own = .integer ∧ ∃ row ∈ rows, ∃ x, e.eval (t.rowScope records row) = .ok (.real x)) ∧
        type = .real ∨
      ¬(own = .integer ∧ ∃ row ∈ rows, ∃ x, e.eval (t.rowScope records row) = .ok (.real x)) ∧
        type = own)

/-- The second table is the projection of the first on the expressions: for each row that matches,
in ascending order, a row of its own with a cell for each expression. The cell is what the expression
evaluates to on the row, brought to the type of the column. -/
structure IsProjection (records : Records ρ) (t : Table) (exprs : List Expr)
    (predicate : Option Expr) (matched : List Nat) (result : Table) : Prop where
  ascending : matched.Pairwise (· < ·)
  mem_matched : ∀ row, row ∈ matched ↔ row < t.rows.length ∧ t.Matches records predicate row
  rows : List.Forall₂ (fun _ row => ∃ cells, row = Row.owned cells ∧ cells.length = exprs.length)
    matched result.rows
  columns : List.Forall₂ (fun e c => ∃ type, c = Column.plain e.label type ∧
    t.HasColumnType records matched e type) exprs result.columns
  cells : ∀ (x y row : Nat) (e : Expr) (c : Column), matched[y]? = some row →
    exprs[x]? = some e → result.columns[x]? = some c →
    ∃ v w, e.eval (t.rowScope records row) = .ok v ∧ v.coerce c.type = .ok w ∧
      result.cell records y x = w

variable {records : Records ρ} {t : Table} {exprs : List Expr} {predicate : Option Expr}

/-! ## The rows that match -/

theorem filterRows_eq_ok {e : Expr} {rows matched : List Nat}
    (h : t.filterRows records e rows = .ok matched) :
    matched.Sublist rows ∧
      ∀ row, row ∈ matched ↔ row ∈ rows ∧ e.eval (t.rowScope records row) = .ok (.integer 1) := by
  induction rows generalizing matched with
  | nil =>
      cases h
      exact ⟨.refl _, by simp⟩
  | cons first rest ih =>
      obtain ⟨v, hv, hrest⟩ := bind_eq_ok.mp h
      obtain ⟨later, hlater, hmatched⟩ := bind_eq_ok.mp hrest
      obtain ⟨hsublist, hmem⟩ := ih hlater
      by_cases hone : v = .integer 1
      · rw [if_pos hone] at hmatched
        cases hmatched
        refine ⟨hsublist.cons_cons first, fun row => ?_⟩
        rw [List.mem_cons, List.mem_cons, hmem, or_and_right]
        refine or_congr_left ⟨?_, And.left⟩
        rintro rfl
        exact ⟨rfl, hone ▸ hv⟩
      · rw [if_neg hone] at hmatched
        cases hmatched
        refine ⟨hsublist.cons first, fun row => ?_⟩
        rw [List.mem_cons, hmem, or_and_right, iff_or_self]
        rintro ⟨rfl, hrow⟩
        rw [hv, Except.ok.injEq] at hrow
        exact absurd hrow hone

theorem rowsWhere_eq_ok {matched : List Nat} (h : t.rowsWhere records predicate = .ok matched) :
    matched.Pairwise (· < ·) ∧
      ∀ row, row ∈ matched ↔ row < t.rows.length ∧ t.Matches records predicate row := by
  cases predicate with
  | none =>
      cases h
      exact ⟨List.pairwise_lt_range, fun row => by simp [Matches]⟩
  | some e =>
      obtain ⟨hsublist, hmem⟩ := filterRows_eq_ok h
      exact ⟨List.pairwise_lt_range.sublist hsublist, fun row => by simp [hmem, Matches]⟩

/-- The predicate is evaluated row after row up to the first fault. -/
theorem filterRows_eq_error {e : Expr} {rows : List Nat} {fault : Fault}
    (h : t.filterRows records e rows = .error fault) (hascending : rows.Pairwise (· < ·)) :
    ∃ row ∈ rows, e.eval (t.rowScope records row) = .error fault ∧
      ∀ before ∈ rows, before < row → ∃ v, e.eval (t.rowScope records before) = .ok v := by
  induction rows with
  | nil => cases h
  | cons first rest ih =>
      obtain ⟨hfirst, hrest⟩ := List.pairwise_cons.mp hascending
      cases hv : e.eval (t.rowScope records first) with
      | error fault' =>
          rw [filterRows, hv] at h
          cases h
          refine ⟨first, List.mem_cons_self, hv, fun before hbefore hlt => ?_⟩
          rcases List.mem_cons.mp hbefore with rfl | hbefore
          · exact absurd hlt (Nat.lt_irrefl before)
          · exact absurd (hfirst before hbefore) (Nat.lt_asymm hlt)
      | ok v =>
          rw [filterRows, hv] at h
          cases hlater : t.filterRows records e rest with
          | ok later =>
              rw [hlater] at h
              cases h
          | error fault' =>
              rw [hlater] at h
              cases h
              obtain ⟨row, hmem, hrow, hbefore⟩ := ih hlater hrest
              refine ⟨row, List.mem_cons_of_mem first hmem, hrow, fun before hin hlt => ?_⟩
              rcases List.mem_cons.mp hin with rfl | hin
              · exact ⟨v, hv⟩
              · exact hbefore before hin hlt

theorem raises_rowsWhere_projection (exprs : List Expr) :
    Raises (ProjectionFault records t exprs predicate) (t.rowsWhere records predicate) := by
  intro fault h
  cases predicate with
  | none => cases h
  | some e =>
      obtain ⟨row, hmem, hrow, hbefore⟩ := filterRows_eq_error h List.pairwise_lt_range
      rw [List.mem_range] at hmem
      exact .predicate rfl hmem
        (fun before hlt => hbefore before (List.mem_range.mpr (by omega)) hlt) hrow

/-! ## The scope of a row -/

theorem Conforms.fits_cell (h : t.Conforms) {row x : Nat} {c : Column}
    (hc : t.columns[x]? = some c) : (t.cell records row x).fits c.type = true := by
  unfold Table.cell
  split
  next r hr =>
    obtain ⟨cells, rfl, hcells⟩ := h r (List.mem_of_getElem? hr)
    rw [Row.cell]
    cases hv : cells[x]? with
    | none => rfl
    | some v => exact hcells x c v hc hv
  next => rfl

theorem Conforms.under (h : t.Conforms) (records : Records ρ) (row : Nat) :
    t.scope.Under (t.rowScope records row) := by
  intro name v type htype hvalue
  simp only [rowScope, columnIndex?] at hvalue
  simp only [scope, columnType] at htype
  split at hvalue
  next x hx =>
    cases hvalue
    obtain ⟨hlt, hname, hfirst⟩ := List.findIdx?_eq_some_iff_getElem.mp hx
    have hfind : t.columns.find? (fun c => c.name == name) = some t.columns[x] :=
      List.find?_eq_some_iff_getElem.mpr ⟨hname, x, hlt, rfl, fun j hj => by simpa using hfirst j hj⟩
    rw [hfind] at htype
    cases htype
    exact h.fits_cell (List.getElem?_eq_getElem hlt)
  next => cases hvalue

/-! ## The cells of the result -/

theorem getElem?_coerceCells {columns : List Column} {values cells : List Value} {x : Nat}
    {c : Column} {v : Value} (h : coerceCells columns values = .ok cells)
    (hc : columns[x]? = some c) (hv : values[x]? = some v) :
    ∃ w, v.coerce c.type = .ok w ∧ cells[x]? = some w := by
  induction columns generalizing values cells x with
  | nil => cases hc
  | cons first columns ih =>
      cases values with
      | nil => cases hv
      | cons value values =>
          obtain ⟨w, hw, hrest⟩ := bind_eq_ok.mp h
          obtain ⟨rest, hcells, hgiven⟩ := bind_eq_ok.mp hrest
          cases hgiven
          cases x with
          | zero =>
              cases hc
              cases hv
              exact ⟨w, hw, rfl⟩
          | succ x =>
              rw [List.getElem?_cons_succ] at hc hv ⊢
              exact ih hcells hc hv

theorem exists_coerceCells {columns : List Column} {values : List Value}
    (hlength : columns.length = values.length)
    (h : ∀ (x : Nat) (c : Column) (v : Value), columns[x]? = some c → values[x]? = some v →
      ∃ w, v.coerce c.type = .ok w) :
    ∃ cells, coerceCells columns values = .ok cells ∧ cells.length = columns.length := by
  induction columns generalizing values with
  | nil => exact ⟨[], rfl, rfl⟩
  | cons c columns ih =>
      cases values with
      | nil => cases hlength
      | cons v values =>
          obtain ⟨w, hw⟩ := h 0 c v rfl rfl
          obtain ⟨rest, hrest, hlast⟩ := ih (Nat.succ.inj hlength)
            fun x c v hc hv => h (x + 1) c v hc hv
          refine ⟨w :: rest, ?_, congrArg (· + 1) hlast⟩
          exact bind_eq_ok.mpr ⟨w, hw, bind_eq_ok.mpr ⟨rest, hrest, rfl⟩⟩

theorem getElem?_projectedColumns {types : List ColumnType} {values : List (List Value)} {x : Nat}
    {e : Expr} {type : ColumnType} (he : exprs[x]? = some e) (htype : types[x]? = some type) :
    (projectedColumns exprs types values)[x]?
      = some (.plain e.label (widen type (values.map fun row => row[x]?))) := by
  have hzip : (exprs.zip types)[x]? = some (e, type) := by
    rw [List.getElem?_zip_eq_some]
    exact ⟨he, htype⟩
  rw [projectedColumns, List.getElem?_map, List.getElem?_zipIdx, hzip]
  simp

theorem exists_of_getElem?_projectedColumns {types : List ColumnType}
    {values : List (List Value)} {x : Nat} {c : Column}
    (h : (projectedColumns exprs types values)[x]? = some c) :
    ∃ e type, exprs[x]? = some e ∧ types[x]? = some type ∧
      c = .plain e.label (widen type (values.map fun row => row[x]?)) := by
  have hzip := h
  rw [projectedColumns, List.getElem?_map, List.getElem?_zipIdx, Option.map_map,
    Option.map_eq_some_iff] at hzip
  obtain ⟨⟨e, type⟩, hpair, -⟩ := hzip
  obtain ⟨he, htype⟩ := List.getElem?_zip_eq_some.mp hpair
  rw [getElem?_projectedColumns he htype, Option.some.injEq] at h
  exact ⟨e, type, he, htype, h.symm⟩

theorem length_projectedColumns {types : List ColumnType} (values : List (List Value))
    (h : exprs.length = types.length) :
    (projectedColumns exprs types values).length = exprs.length := by
  simp [projectedColumns, ← h]

theorem isReal_iff {v : Value} : isReal v = true ↔ ∃ x, v = .real x := by
  cases v <;> simp [isReal]

section Projected

variable {matched : List Nat} {types : List ColumnType} {values : List (List Value)}

/-- The expressions have their types, and on each row that matches their values. -/
structure Projected (records : Records ρ) (t : Table) (exprs : List Expr) (matched : List Nat)
    (types : List ColumnType) (values : List (List Value)) : Prop where
  types : List.Forall₂ (fun e type => e.staticType t.scope = .ok type) exprs types
  values : List.Forall₂ (fun row vs =>
    List.Forall₂ (fun e v => e.eval (t.rowScope records row) = .ok v) exprs vs) matched values

variable (h : Projected records t exprs matched types values)

include h

theorem Projected.exists_value {x y row : Nat} {e : Expr} (hrow : matched[y]? = some row)
    (he : exprs[x]? = some e) : ∃ vs v, values[y]? = some vs ∧ vs[x]? = some v ∧
      e.eval (t.rowScope records row) = .ok v := by
  obtain ⟨vs, hvs, hvalues⟩ := exists_right_of_forall₂ h.values hrow
  obtain ⟨v, hv, heval⟩ := exists_right_of_forall₂ hvalues he
  exact ⟨vs, v, hvs, hv, heval⟩

theorem Projected.exists_eval {x y : Nat} {vs : List Value} {v : Value} (hvs : values[y]? = some vs)
    (hv : vs[x]? = some v) : ∃ row e, matched[y]? = some row ∧ exprs[x]? = some e ∧
      e.eval (t.rowScope records row) = .ok v := by
  obtain ⟨row, hrow, hvalues⟩ := exists_left_of_forall₂ h.values hvs
  obtain ⟨e, he, heval⟩ := exists_left_of_forall₂ hvalues hv
  exact ⟨row, e, hrow, he, heval⟩

theorem Projected.any_isReal_iff {x : Nat} {e : Expr} (he : exprs[x]? = some e) :
    ((values.map fun row => row[x]?).any fun v => v.any isReal) = true ↔
      ∃ row ∈ matched, ∃ r, e.eval (t.rowScope records row) = .ok (.real r) := by
  rw [List.any_map, List.any_eq_true]
  constructor
  · rintro ⟨vs, hmem, hany⟩
    obtain ⟨y, hvs⟩ := List.mem_iff_getElem?.mp hmem
    obtain ⟨v, hv, hreal⟩ := (Option.any_eq_true _ _).mp hany
    obtain ⟨r, rfl⟩ := isReal_iff.mp hreal
    obtain ⟨row, e', hrow, he', heval⟩ := h.exists_eval hvs hv
    rw [he, Option.some.injEq] at he'
    subst he'
    exact ⟨row, List.mem_of_getElem? hrow, r, heval⟩
  · rintro ⟨row, hmem, r, hreal⟩
    obtain ⟨y, hrow⟩ := List.mem_iff_getElem?.mp hmem
    obtain ⟨vs, v, hvs, hv, heval⟩ := h.exists_value hrow he
    rw [hreal, Except.ok.injEq] at heval
    refine ⟨vs, List.mem_of_getElem? hvs, ?_⟩
    rw [Function.comp_apply, hv, ← heval]
    rfl

theorem Projected.hasColumnType_widen {x : Nat} {e : Expr} {type : ColumnType}
    (he : exprs[x]? = some e) (htype : types[x]? = some type) :
    t.HasColumnType records matched e (widen type (values.map fun row => row[x]?)) := by
  obtain ⟨own, hown, hstatic⟩ := exists_right_of_forall₂ h.types he
  rw [htype, Option.some.injEq] at hown
  subst hown
  refine ⟨type, hstatic, ?_⟩
  rw [← h.any_isReal_iff he]
  unfold widen
  split
  next hwide => exact .inl ⟨hwide, rfl⟩
  next hnarrow => exact .inr ⟨hnarrow, rfl⟩

/-- What an expression evaluates to can be brought to the type of its column. -/
theorem Projected.exists_coerceCells (ht : t.Conforms) {vs : List Value} (hvs : vs ∈ values) :
    ∃ cells, coerceCells (projectedColumns exprs types values) vs = .ok cells ∧
      cells.length = exprs.length := by
  obtain ⟨y, hy⟩ := List.mem_iff_getElem?.mp hvs
  have hcolumns := length_projectedColumns values h.types.length_eq
  obtain ⟨row, -, hvalues⟩ := exists_left_of_forall₂ h.values hy
  rw [← hcolumns]
  apply Table.exists_coerceCells
  · rw [hcolumns]
    exact hvalues.length_eq
  · intro x c v hc hv
    obtain ⟨e, type, he, htype, rfl⟩ := exists_of_getElem?_projectedColumns hc
    obtain ⟨v', hv', heval⟩ := exists_right_of_forall₂ hvalues he
    rw [hv, Option.some.injEq] at hv'
    subst hv'
    obtain ⟨own, hown, hwidened⟩ := h.hasColumnType_widen he htype
    refine Expr.exists_coerce_of_eval (ht.under records row) hown ?_ heval
    rcases hwidened with ⟨⟨hinteger, -⟩, hreal⟩ | ⟨-, hsame⟩
    · exact .inr ⟨hinteger, hreal⟩
    · exact .inl hsame

/-- The rows that are written, with the cells of each brought to their columns. -/
theorem Projected.exists_cell {rows : List (List Value)}
    (hrows : List.Forall₂ (fun vs cells =>
      coerceCells (projectedColumns exprs types values) vs = .ok cells) values rows)
    {x y row : Nat} {e : Expr} {c : Column} (hrow : matched[y]? = some row)
    (he : exprs[x]? = some e) (hc : (projectedColumns exprs types values)[x]? = some c) :
    ∃ cells v w, rows[y]? = some cells ∧ e.eval (t.rowScope records row) = .ok v ∧
      v.coerce c.type = .ok w ∧ cells[x]? = some w := by
  obtain ⟨vs, v, hvs, hv, heval⟩ := h.exists_value hrow he
  obtain ⟨cells, hcells, hcoerced⟩ := exists_right_of_forall₂ hrows hvs
  obtain ⟨w, hw, hcell⟩ := getElem?_coerceCells hcoerced hc hv
  exact ⟨cells, v, w, hcells, heval, hw, hcell⟩

/-- So the table of the results can be made, and it is the projection. -/
theorem Projected.exists_isProjection (ht : t.Conforms) (hne : exprs ≠ [])
    (hmatched : t.rowsWhere records predicate = .ok matched) :
    ∃ result, ofRows (projectedColumns exprs types values) values = .ok result ∧
      IsProjection records t exprs predicate matched result ∧ result.Conforms := by
  have hcolumns := length_projectedColumns values h.types.length_eq
  have hsome : (projectedColumns exprs types values).isEmpty = false := by
    rw [List.isEmpty_eq_false_iff_exists_mem]
    apply List.exists_mem_of_length_pos
    rw [hcolumns]
    exact List.length_pos_of_ne_nil hne
  obtain ⟨rows, hboth⟩ := exists_forall₂ fun vs hvs => h.exists_coerceCells ht hvs
  have hrows := hboth.imp fun _ _ hrow => hrow.1
  refine ⟨⟨projectedColumns exprs types values, rows.map .owned⟩, ?_, ?_, ?_⟩
  · rw [ofRows, hsome]
    exact bind_eq_ok.mpr ⟨rows, mapM_eq_ok.mpr hrows, rfl⟩
  · obtain ⟨hascending, hmem⟩ := rowsWhere_eq_ok hmatched
    refine ⟨hascending, hmem, ?_, ?_, ?_⟩
    · have hlength : matched.length = (rows.map Row.owned).length := by
        rw [List.length_map, ← hboth.length_eq, h.values.length_eq]
      refine forall₂_of_getElem? hlength fun y _ row _ hrow => ?_
      obtain ⟨cells, hcells, rfl⟩ := List.mem_map.mp (List.mem_of_getElem? hrow)
      obtain ⟨y', hy'⟩ := List.mem_iff_getElem?.mp hcells
      obtain ⟨vs, -, -, hlength'⟩ := exists_left_of_forall₂ hboth hy'
      exact ⟨cells, rfl, hlength'⟩
    · refine forall₂_of_getElem? hcolumns.symm fun x e c he hc => ?_
      obtain ⟨e', type, he', htype, rfl⟩ := exists_of_getElem?_projectedColumns hc
      rw [he, Option.some.injEq] at he'
      subst he'
      exact ⟨_, rfl, h.hasColumnType_widen he htype⟩
    · intro x y row e c hrow he hc
      obtain ⟨cells, v, w, hcells, heval, hw, hcell⟩ := h.exists_cell hrows hrow he hc
      refine ⟨v, w, heval, hw, ?_⟩
      rw [cell, List.getElem?_map, hcells]
      simp [Row.cell, hcell]
  · intro row hrow
    obtain ⟨cells, hmem, rfl⟩ := List.mem_map.mp hrow
    refine ⟨cells, rfl, fun x c v hc hv => ?_⟩
    obtain ⟨y, hy⟩ := List.mem_iff_getElem?.mp hmem
    obtain ⟨vs, hvs, -⟩ := exists_left_of_forall₂ hrows hy
    obtain ⟨row, hrow, -⟩ := exists_left_of_forall₂ h.values hvs
    obtain ⟨e, type, he, -, -⟩ := exists_of_getElem?_projectedColumns hc
    obtain ⟨cells', v', w, hcells', -, hw, hcell⟩ := h.exists_cell hrows hrow he hc
    rw [hy, Option.some.injEq] at hcells'
    subst hcells'
    rw [hv, Option.some.injEq] at hcell
    exact hcell ▸ Value.fits_of_coerce hw

end Projected

/-! ## Projections -/

theorem raises_projected (predicate : Option Expr) {matched : List Nat}
    (hmatched : t.rowsWhere records predicate = .ok matched) (exprs : List Expr) :
    Raises (ProjectionFault records t exprs predicate) (exprs.mapM fun e => e.staticType t.scope) ∧
      Raises (ProjectionFault records t exprs predicate)
        (matched.mapM (t.project records exprs)) := by
  obtain ⟨-, hmem⟩ := rowsWhere_eq_ok hmatched
  constructor
  · exact raises_mapM fun e he fault hfault => .type he hfault
  · intro fault h
    refine raises_mapM (fun row hrow => ?_) fault h
    obtain ⟨hlt, hrowMatches⟩ := (hmem row).mp hrow
    exact raises_mapM fun e he fault hfault => .value he hlt hrowMatches hfault

theorem projected_of_mapM {matched : List Nat} {types : List ColumnType}
    {values : List (List Value)} (htypes : exprs.mapM (fun e => e.staticType t.scope) = .ok types)
    (hvalues : matched.mapM (t.project records exprs) = .ok values) :
    Projected records t exprs matched types values :=
  ⟨mapM_eq_ok.mp htypes, (mapM_eq_ok.mp hvalues).imp fun _ _ hrow => mapM_eq_ok.mp hrow⟩

/-- A projection of a table that conforms to its types has the faults of the predicate, of the
expressions and of their types, and no others; where there are none, it is the table of the values
on the rows that match, and conforms to its types too. -/
theorem extract_of_conforms (records : Records ρ) {t : Table} (exprs : List Expr)
    (predicate : Option Expr) (ht : t.Conforms) (hne : exprs ≠ []) :
    Raises (ProjectionFault records t exprs predicate)
        (t.extract records (some exprs) predicate) ∧
      ∀ result, t.extract records (some exprs) predicate = .ok result →
        (∃ matched, IsProjection records t exprs predicate matched result) ∧ result.Conforms := by
  constructor
  · refine raises_bind (raises_rowsWhere_projection exprs) fun matched hmatched => ?_
    obtain ⟨hraisesTypes, hraisesValues⟩ := raises_projected predicate hmatched exprs
    refine raises_bind hraisesTypes fun types htypes => raises_bind hraisesValues
      fun values hvalues => ?_
    obtain ⟨result, hresult, -⟩ :=
      (projected_of_mapM htypes hvalues).exists_isProjection ht hne hmatched
    rw [hresult]
    exact raises_ok result
  · intro result h
    obtain ⟨matched, hmatched, hselect⟩ := bind_eq_ok.mp h
    obtain ⟨types, htypes, hrest⟩ := bind_eq_ok.mp hselect
    obtain ⟨values, hvalues, hrows⟩ := bind_eq_ok.mp hrest
    obtain ⟨result', hresult', hprojection, hconforms⟩ :=
      (projected_of_mapM htypes hvalues).exists_isProjection ht hne hmatched
    rw [hrows, Except.ok.injEq] at hresult'
    subst hresult'
    exact ⟨⟨matched, hprojection⟩, hconforms⟩

/-- A column of numbers, one of them missing. -/
def numbers : Table :=
  ⟨[.plain "n" .integer], [.owned [.integer 1], .owned [.null], .owned [.integer 3]]⟩

theorem conforms_numbers : numbers.Conforms := by
  intro row hrow
  simp only [numbers, List.mem_cons, List.not_mem_nil, or_false] at hrow
  rcases hrow with rfl | rfl | rfl <;> refine ⟨_, rfl, fun x c v hc hv => ?_⟩ <;>
    rcases x with _ | x <;> cases hc <;> cases hv <;> rfl

/-- One more than each number that is there. -/
theorem extract_of_conforms_numbers :
    ∃ result, numbers.extract (⟨[]⟩ : Records CellRecord)
        (some [.binary .add (.column "n") (.literal (.integer 1))])
        (some (.unary .notNull (.column "n"))) = .ok result ∧
      (∃ matched, IsProjection (⟨[]⟩ : Records CellRecord) numbers
        [.binary .add (.column "n") (.literal (.integer 1))]
        (some (.unary .notNull (.column "n"))) matched result) ∧ result.Conforms := by
  obtain ⟨-, h⟩ := extract_of_conforms (⟨[]⟩ : Records CellRecord)
    [.binary .add (.column "n") (.literal (.integer 1))] (some (.unary .notNull (.column "n")))
    conforms_numbers (List.cons_ne_nil _ _)
  exact ⟨_, rfl, h _ rfl⟩

end OnePassSql.Table
