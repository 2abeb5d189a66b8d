import OnePassSql.Proofs.Database.Typing
import OnePassSql.Proofs.Table.Union

/-!
What a SELECT gives is well typed if the stored tables are: selecting, projecting and uniting keep
to the kinds of the columns.
-/

namespace OnePassSql

open Step

namespace Statement

variable {ρ α : Type}

/-- On well typed stored tables the step gives well typed tables. -/
def YieldsTyped (x : Statement ρ Table) : Prop :=
  ∀ s t s', s.database.WellTyped → x s = .ok t s' → t.WellTyped

theorem yieldsTyped_pure {t : Table} (h : t.WellTyped) :
    YieldsTyped (pure t : Statement ρ Table) := by
  intro s t' s' _ hs
  cases hs
  exact h

theorem yieldsTyped_throw (fault : Fault) : YieldsTyped (throw fault : Statement ρ Table) := by
  intro s t s' _ hs
  cases hs

theorem yieldsTyped_throw_bind (fault : Fault) (f : α → Statement ρ Table) :
    YieldsTyped ((throw fault : Statement ρ α) >>= f) := by
  intro s t s' _ hs
  obtain ⟨a, s₁, hthrow, -⟩ := bind_eq_ok.mp hs
  cases hthrow

theorem yieldsTyped_bind {x : Statement ρ α} {f : α → Statement ρ Table}
    (hx : Respects Session.SameDatabase x) (hf : ∀ a, YieldsTyped (f a)) :
    YieldsTyped (x >>= f) := by
  intro s t s' htyped h
  obtain ⟨a, s₁, hs, hrest⟩ := bind_eq_ok.mp h
  exact hf a s₁ t s' (hx.ok hs ▸ htyped) hrest

theorem YieldsTyped.bind {x : Statement ρ Table} {f : Table → Statement ρ Table}
    (hy : YieldsTyped x) (hx : Respects Session.SameDatabase x)
    (hf : ∀ t, t.WellTyped → YieldsTyped (f t)) : YieldsTyped (x >>= f) := by
  intro s t s' htyped h
  obtain ⟨t₁, s₁, hs, hrest⟩ := bind_eq_ok.mp h
  exact hf t₁ (hy s t₁ s₁ htyped hs) s₁ t s' (hx.ok hs ▸ htyped) hrest

theorem yieldsTyped_after_parsing {step : Parse α} {f : α → Statement ρ Table}
    (hf : ∀ a, YieldsTyped (f a)) : YieldsTyped ((liftM step : Statement ρ α) >>= f) :=
  yieldsTyped_bind (sameDatabase_parsing step) hf

theorem yieldsTyped_table (name : String) : YieldsTyped (table name : Statement ρ Table) := by
  intro s t s' htyped h
  exact htyped name t (table_eq_ok h).2

end Statement

namespace Select

open Parse Statement

variable {ρ : Type} [Record ρ]

theorem yieldsTyped_extract {t : Table} {columns : Option (List Expr)} {predicate : Option Expr}
    (h : columns = none → t.WellTyped) :
    YieldsTyped (extract t columns predicate : Statement ρ Table) := by
  intro s t' s' _ hs
  obtain ⟨s₁, s₂, hget, hsettle⟩ := bind_eq_ok.mp hs
  exact Table.wellTyped_extract h (settle_eq_ok.mp hsettle).1

theorem yieldsTyped_unite {t other : Table} (ht : t.WellTyped) (hother : other.WellTyped) :
    YieldsTyped (unite t other : Statement ρ Table) := by
  intro s t' s' _ hs
  unfold unite at hs
  split at hs
  · next sheet hunion =>
      cases hs
      exact (Edit.keepsTypes_union hother).ok hunion ht
  · cases hs

/-- The tables of the cores before are well typed. -/
def LeftTyped (left : Option (Table × Compound)) : Prop :=
  ∀ t compound, left = some (t, compound) → t.WellTyped

theorem yieldsTyped_combine {t : Table} (ht : t.WellTyped) {left : Option (Table × Compound)}
    (hleft : LeftTyped left) : YieldsTyped (combine t left : Statement ρ Table) := by
  cases left with
  | none => exact yieldsTyped_pure ht
  | some left =>
      obtain ⟨left, compound⟩ := left
      cases compound with
      | union => exact yieldsTyped_unite ht (hleft left _ rfl)
      | intersect => exact yieldsTyped_throw _
      | except => exact yieldsTyped_throw _

section Loops

variable {budget : Nat}

theorem yieldsTyped_selectWithin_succ
    (hselect : ∀ left, LeftTyped left → YieldsTyped (selectWithin budget left : Statement ρ Table))
    (hcore : YieldsTyped (coreWithin budget : Statement ρ Table))
    {left : Option (Table × Compound)} (hleft : LeftTyped left) :
    YieldsTyped (selectWithin (budget + 1) left : Statement ρ Table) := by
  obtain ⟨hselects, hcores, -⟩ := reads_withinBudget (ρ := ρ) budget
  have htail : ∀ result : Table, result.WellTyped → YieldsTyped (do
      (ordering : Parse Unit); (limit : Parse Unit); return result : Statement ρ Table) :=
    fun result hresult => yieldsTyped_after_parsing fun _ =>
      yieldsTyped_after_parsing fun _ => yieldsTyped_pure hresult
  refine hcore.bind (sameDatabase_of_reads hcores) fun core htyped =>
    (yieldsTyped_combine htyped hleft).bind (sameDatabase_of_reads (reads_combine _ _))
      fun result hresult => yieldsTyped_after_parsing fun found => ?_
  cases found with
  | none => exact (yieldsTyped_pure hresult).bind (respects_pure _) htail
  | some compound =>
      refine yieldsTyped_after_parsing fun _ =>
        (hselect _ ?_).bind (sameDatabase_of_reads (hselects _)) htail
      intro t compound' heq
      cases heq
      exact hresult

theorem yieldsTyped_coreWithin_succ
    (hjoined : YieldsTyped (joinedWithin budget : Statement ρ Table)) :
    YieldsTyped (coreWithin (budget + 1) : Statement ρ Table) := by
  refine yieldsTyped_after_parsing fun _ => yieldsTyped_bind respects_bindings fun b =>
    yieldsTyped_after_parsing fun columns => yieldsTyped_after_parsing fun hasSource => ?_
  have hrest : ∀ source : Table, (columns = none → source.WellTyped) → YieldsTyped (do
      let predicate ← optionalExpression "WHERE" (← bindings)
      (grouping : Parse Unit)
      extract source columns predicate : Statement ρ Table) :=
    fun source htyped => yieldsTyped_bind respects_bindings fun b =>
      yieldsTyped_after_parsing fun predicate => yieldsTyped_after_parsing fun _ =>
        yieldsTyped_extract htyped
  split
  · exact hjoined.bind (sameDatabase_of_reads (reads_withinBudget budget).2.2.1)
      fun source htyped => hrest source fun _ => htyped
  split
  · exact yieldsTyped_throw_bind _ _
  · next hsome =>
      -- without a source there are columns, so the rows of the unit table are not taken over
      refine yieldsTyped_bind (respects_pure _) fun source => hrest source fun hnone => ?_
      simp [hnone] at hsome

theorem yieldsTyped_joinedWithin_succ
    (hsource : YieldsTyped (sourceWithin budget : Statement ρ Table)) :
    YieldsTyped (joinedWithin (budget + 1) : Statement ρ Table) := by
  have hsources := sameDatabase_of_reads (reads_withinBudget (ρ := ρ) budget).2.2.2
  refine hsource.bind hsources fun source htyped => yieldsTyped_after_parsing fun found => ?_
  cases found with
  | none => exact yieldsTyped_pure htyped
  | some word =>
      exact yieldsTyped_after_parsing fun _ => yieldsTyped_bind hsources fun _ =>
        yieldsTyped_after_parsing fun _ => yieldsTyped_throw _

theorem yieldsTyped_sourceWithin_succ
    (hselect : ∀ left, LeftTyped left → YieldsTyped (selectWithin budget left : Statement ρ Table))
    (hjoined : YieldsTyped (joinedWithin budget : Statement ρ Table)) :
    YieldsTyped (sourceWithin (budget + 1) : Statement ρ Table) := by
  obtain ⟨hselects, -, hjoins, -⟩ := reads_withinBudget (ρ := ρ) budget
  refine yieldsTyped_after_parsing fun nested => ?_
  have hrest : ∀ source : Table, source.WellTyped → YieldsTyped (do
      if ← accept "AS" then
        let _ ← expectToken
      return source : Statement ρ Table) := by
    intro source htyped
    refine yieldsTyped_after_parsing fun named => ?_
    cases named with
    | true => exact yieldsTyped_after_parsing fun _ => yieldsTyped_pure htyped
    | false => exact yieldsTyped_pure htyped
  cases nested with
  | true =>
      refine yieldsTyped_after_parsing fun isSelect => ?_
      cases isSelect with
      | true =>
          have hnone : LeftTyped none := fun t compound heq => nomatch heq
          exact (hselect none hnone).bind (sameDatabase_of_reads (hselects none))
            fun inner htyped => yieldsTyped_after_parsing fun _ =>
              (yieldsTyped_pure htyped).bind (respects_pure _) hrest
      | false =>
          exact hjoined.bind (sameDatabase_of_reads hjoins) fun inner htyped =>
            yieldsTyped_after_parsing fun _ =>
              (yieldsTyped_pure htyped).bind (respects_pure _) hrest
  | false =>
      exact yieldsTyped_after_parsing fun name =>
        (yieldsTyped_table name).bind (respects_table name) hrest

end Loops

/-- All the loops of a SELECT give well typed tables, on whatever budget. -/
theorem yieldsTyped_withinBudget (budget : Nat) :
    (∀ left, LeftTyped left → YieldsTyped (selectWithin budget left : Statement ρ Table)) ∧
      YieldsTyped (coreWithin budget : Statement ρ Table) ∧
      YieldsTyped (joinedWithin budget : Statement ρ Table) ∧
      YieldsTyped (sourceWithin budget : Statement ρ Table) := by
  induction budget with
  | zero =>
      exact ⟨fun _ _ => yieldsTyped_throw _, yieldsTyped_throw _, yieldsTyped_throw _,
        yieldsTyped_throw _⟩
  | succ budget ih =>
      obtain ⟨hselect, hcore, hjoined, hsource⟩ := ih
      exact ⟨fun _ => yieldsTyped_selectWithin_succ hselect hcore,
        yieldsTyped_coreWithin_succ hjoined, yieldsTyped_joinedWithin_succ hsource,
        yieldsTyped_sourceWithin_succ hselect hjoined⟩

end Select

end OnePassSql
