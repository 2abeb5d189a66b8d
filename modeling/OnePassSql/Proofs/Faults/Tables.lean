import OnePassSql.Proofs.Faults.Evaluation
import OnePassSql.Proofs.Table.Writing
import OnePassSql.Table.Selection
import OnePassSql.Table.Union

/-!
What work on tables can fault with. A selection has the faults of its expressions; a value that is
written can fail to be brought to its column, and nothing else can be wrong with it.
-/

namespace OnePassSql

open Step Result

/-! ## Names -/

namespace Scope

theorem named_none : Named .none where
  value _ := raises_error .semantic
  type _ := raises_error .semantic

end Scope

namespace Table

theorem raises_columnType (t : Table) (name : String) :
    Raises Fault.IsSemantic (t.columnType name) := by
  unfold columnType
  split
  · exact raises_ok _
  · exact raises_error .semantic

theorem named_scope (t : Table) : t.scope.Named where
  value name := by
    simp only [scope]
    split
    · exact raises_error .semantic
    · exact raises_error .semantic
  type := t.raises_columnType

variable {ρ : Type} [Record ρ]

theorem named_rowScope (records : Records ρ) (t : Table) (row : Nat) :
    (t.rowScope records row).Named where
  value name := by
    simp only [rowScope]
    split
    · exact raises_ok _
    · exact raises_error .semantic
  type := t.raises_columnType

end Table

/-- The scope is that of a table or of one of its rows. -/
inductive Scope.OfTable : Scope → Prop where
  | heading (t : Table) : OfTable t.scope
  | row {ρ : Type} [Record ρ] (records : Records ρ) (t : Table) (row : Nat) :
      OfTable (t.rowScope records row)

namespace Table

variable {ρ : Type} [Record ρ]

/-! ## Selections -/

/-- What a selection can fault with. -/
inductive ExtractFault (records : Records ρ) (t : Table) (columns : Option (List Expr))
    (predicate : Option Expr) : Fault → Prop where
  | semantic {fault} : fault.IsSemantic → ExtractFault records t columns predicate fault
  | coercion {fault} : fault.IsCoercion → ExtractFault records t columns predicate fault
  | predicate {e row} : predicate = some e → e.MeetsMembership (t.rowScope records row) →
      ExtractFault records t columns predicate (.unsupported .membership)
  | column {es e row} : columns = some es → e ∈ es →
      e.MeetsMembership (t.rowScope records row) →
      ExtractFault records t columns predicate (.unsupported .membership)
  | callType {es e} : columns = some es → e ∈ es → e.AsksCallType t.scope →
      ExtractFault records t columns predicate (.unsupported (.functionType "COALESCE"))

theorem raises_coerceCells : ∀ (columns : List Column) (values : List Value),
    Raises Fault.IsCoercion (coerceCells columns values)
  | c :: columns, v :: values =>
      raises_bind (v.raises_coerce c.type) fun _ _ =>
        raises_bind (raises_coerceCells columns values) fun _ _ => raises_ok _
  | [], _ | _ :: _, [] => raises_ok []

theorem raises_ofRows (columns : List Column) (rows : List (List Value)) :
    Raises Fault.IsCoercion (ofRows columns rows) :=
  raises_bind (raises_mapM fun row _ => raises_coerceCells columns row) fun _ _ => raises_ok _

section

variable {records : Records ρ} {t : Table}

theorem raises_filterRows {predicate : Expr} (h : predicate.CallsKnown)
    (columns : Option (List Expr)) (rows : List Nat) :
    Raises (ExtractFault records t columns (some predicate))
      (filterRows records t predicate rows) := by
  induction rows with
  | nil => exact raises_ok []
  | cons row rest ih =>
      refine raises_bind (((predicate.raises_eval (t.named_rowScope records row)) h).mono
        fun fault he => ?_) fun v _ => raises_bind ih fun matched _ => raises_ok _
      cases he with
      | semantic he => exact .semantic he
      | coercion he => exact .coercion he
      | membership he => exact .predicate rfl he

theorem raises_rowsWhere {predicate : Option Expr} (h : ∀ e, predicate = some e → e.CallsKnown)
    (columns : Option (List Expr)) :
    Raises (ExtractFault records t columns predicate) (rowsWhere records t predicate) := by
  cases predicate with
  | none => exact raises_ok _
  | some e => exact raises_filterRows (h e rfl) columns _

theorem raises_project {exprs : List Expr} (h : ∀ e ∈ exprs, e.CallsKnown)
    (predicate : Option Expr) (row : Nat) :
    Raises (ExtractFault records t (some exprs) predicate) (t.project records exprs row) := by
  refine raises_mapM fun e hmem => (e.raises_eval (t.named_rowScope records row) (h e hmem)).mono
    fun fault he => ?_
  cases he with
  | semantic he => exact .semantic he
  | coercion he => exact .coercion he
  | membership he => exact .column rfl hmem he

theorem raises_staticTypes {exprs : List Expr} (h : ∀ e ∈ exprs, e.CallsKnown)
    (predicate : Option Expr) :
    Raises (ExtractFault records t (some exprs) predicate)
      (exprs.mapM fun e => e.staticType t.scope) := by
  refine raises_mapM fun e hmem => (e.raises_staticType t.named_scope (h e hmem)).mono
    fun fault he => ?_
  cases he with
  | semantic he => exact .semantic he
  | callType he => exact .callType rfl hmem he

theorem raises_extract {columns : Option (List Expr)} {predicate : Option Expr}
    (hcolumns : ∀ es, columns = some es → ∀ e ∈ es, e.CallsKnown)
    (hpredicate : ∀ e, predicate = some e → e.CallsKnown) :
    Raises (ExtractFault records t columns predicate) (t.extract records columns predicate) := by
  refine raises_bind (raises_rowsWhere hpredicate columns) fun matched _ => ?_
  cases columns with
  | none => exact raises_ok _
  | some exprs =>
      have hknown := hcolumns exprs rfl
      exact raises_bind (raises_staticTypes hknown predicate) fun types _ =>
        raises_bind (raises_mapM fun row _ => raises_project hknown predicate row) fun values _ =>
          (raises_ofRows _ _).mono fun _ => .coercion

end

end Table

/-! ## Writing -/

namespace Edit

variable {ρ : Type} [Record ρ]

/-- Whatever the sheet, the edit faults only where a value is not brought to its column. -/
abbrev Writes (e : Edit ρ Unit) : Prop :=
  Ends (fun _ => True) Fault.IsCoercion (fun _ => True) e

theorem endsAt_set {s : Sheet ρ} {column : Nat} {c : Column}
    (h : s.table.columns[column]? = some c) (row : Nat) (v : Value) :
    EndsAt (fun _ => True) Fault.IsCoercion (fun _ => True) (set row column v) s := by
  rcases set_cases s row column v with ⟨fault, hrefuses, hset⟩ | ⟨c, w, -, -, hset⟩
  · obtain ⟨hnone, -⟩ | ⟨c, -, hv⟩ := hrefuses
    · cases h.symm.trans hnone
    · exact endsAt_of_error hset (v.raises_coerce c.type fault hv)
  · exact endsAt_of_ok hset trivial trivial

theorem writes_addColumns (columns : List Column) :
    Writes (addColumns columns : Edit ρ Unit) := by
  induction columns with
  | nil => exact ends_pure trivial
  | cons c rest ih => exact (ends_modify fun _ _ => trivial).bind fun _ _ => ih

/-- A cell is only written to a column that the name was found at. -/
theorem writes_copyCells (source : Table) (row target index : Nat) (columns : List Column) :
    Writes (copyCells source row target index columns : Edit ρ Unit) := by
  induction columns generalizing index with
  | nil => exact ends_pure trivial
  | cons c rest ih =>
      intro s _
      refine endsAt_bind (ends_get s trivial) fun s' _ hget _ _ => ?_
      cases hget
      cases hindex : s.table.columnIndex? c.name with
      | none => exact ih (index + 1) s trivial
      | some column =>
          obtain ⟨hlt, -⟩ := List.findIdx?_eq_some_iff_getElem.mp hindex
          exact endsAt_bind (endsAt_set (List.getElem?_eq_getElem hlt) _ _)
            fun _ s' _ hs' _ => ih (index + 1) s' hs'

theorem writes_copyRows (source : Table) (rows : List Nat) :
    Writes (copyRows source rows : Edit ρ Unit) := by
  induction rows with
  | nil => exact ends_pure trivial
  | cons row rest ih =>
      exact ends_get.bind fun s _ => (writes_copyCells _ _ _ _ _).bind fun _ _ => ih

theorem writes_union (other : Table) : Writes (union other : Edit ρ Unit) :=
  (writes_addColumns other.columns).bind fun _ _ => writes_copyRows _ _

end Edit

end OnePassSql
