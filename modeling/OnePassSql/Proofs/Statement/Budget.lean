import OnePassSql.Proofs.Statement.Reading

/-!
The step budgets of a SELECT do not show: with enough of them for the tokens left, every two budgets
give the same run. What suffices is twice the number of tokens, because between two loops that are
entered with the same tokens there are at most two that take none.
-/

namespace OnePassSql

open Step

namespace Session

variable {ρ : Type}

/-- How many tokens are left. -/
def tokens (s : Session ρ) : Nat := s.parser.ahead.length

theorem ReadsTo.tokens_le {s t : Session ρ} (h : s.ReadsTo t) : t.tokens ≤ s.tokens :=
  TokenStream.LeadsTo.length_le h.1

end Session

namespace Statement

open Parse

variable {ρ : Type}

theorem tokens_le_of_parsing {α : Type} {step : Parse α} (h : MovesOn step) {s t : Session ρ}
    {a : α} (hs : (liftM step : Statement ρ α) s = .ok a t) : t.tokens ≤ s.tokens :=
  ((reads_parsing h).ok hs).tokens_le

/-- A word that was accepted took a token. -/
theorem tokens_lt_of_accept {word : String} {s t : Session ρ}
    (h : (liftM (accept word) : Statement ρ Bool) s = .ok true t) : t.tokens < s.tokens := by
  obtain ⟨p, hp, rfl⟩ := parsing_eq_ok.mp h
  rcases accept_eq_ok hp with ⟨hfalse, -⟩ | ⟨-, first, rest, hahead, rfl⟩
  · cases hfalse
  · simp [Session.tokens, hahead, TokenStream.length]

theorem tokens_lt_of_expect {word : String} {s t : Session ρ}
    (h : (liftM (expect word) : Statement ρ Unit) s = .ok ⟨⟩ t) : t.tokens < s.tokens := by
  obtain ⟨p, hp, rfl⟩ := parsing_eq_ok.mp h
  obtain ⟨first, rest, -, hahead, rfl⟩ := expectOne_eq_ok hp
  simp [Session.tokens, hahead, TokenStream.length]

end Statement

namespace Select

open Parse Statement

variable {ρ : Type} [Record ρ]

/-- On `budget`, if it is at least twice the tokens left and `extra`, the loop runs as on every
other budget that is. -/
def BudgetFree (loop : Nat → Statement ρ Table) (extra budget : Nat) : Prop :=
  ∀ (s : Session ρ) (other : Nat), 2 * s.tokens + extra ≤ budget → 2 * s.tokens + extra ≤ other →
    loop budget s = loop other s

section Loops

variable {b : Nat}

theorem budgetFree_selectWithin_succ
    (hselect : ∀ left, BudgetFree (ρ := ρ) (selectWithin · left) 2 b)
    (hcore : BudgetFree (ρ := ρ) coreWithin 1 b) (left : Option (Table × Compound)) :
    BudgetFree (ρ := ρ) (selectWithin · left) 2 (b + 1) := by
  intro s b' hb hb'
  obtain ⟨b', rfl⟩ : ∃ n, b' = n + 1 := ⟨b' - 1, by omega⟩
  unfold selectWithin
  refine bind_congr (hcore s b' (by omega) (by omega)) fun core s₁ h₁ => ?_
  refine bind_congr rfl fun result s₂ h₂ => bind_congr rfl fun found s₃ h₃ => ?_
  have hle₁ := ((reads_withinBudget b).2.1.ok h₁).tokens_le
  have hle₂ := ((reads_combine core left).ok h₂).tokens_le
  have hle₃ := tokens_le_of_parsing movesOn_compound? h₃
  cases found with
  | none => rfl
  | some compound =>
      refine bind_congr rfl fun _ s₄ h₄ => ?_
      have hlt := tokens_lt_of_expect h₄
      exact bind_congr (hselect _ s₄ b' (by omega) (by omega)) fun _ _ _ => rfl

theorem budgetFree_coreWithin_succ (hjoined : BudgetFree (ρ := ρ) joinedWithin 2 b) :
    BudgetFree (ρ := ρ) coreWithin 1 (b + 1) := by
  intro s b' hb hb'
  obtain ⟨b', rfl⟩ : ∃ n, b' = n + 1 := ⟨b' - 1, by omega⟩
  unfold coreWithin
  refine bind_congr rfl fun _ s₁ h₁ => bind_congr rfl fun bound s₂ h₂ =>
    bind_congr rfl fun columns s₃ h₃ => bind_congr rfl fun hasSource s₄ h₄ => ?_
  have hle₁ := tokens_le_of_parsing (movesOn_acceptOne? _) h₁
  have hle₂ := ((respects_bindings (R := Session.ReadsTo)).ok h₂).tokens_le
  have hle₃ := tokens_le_of_parsing (movesOn_resultColumns _) h₃
  cases hasSource with
  | false => rfl
  | true =>
      have hlt := tokens_lt_of_accept h₄
      exact bind_congr (hjoined s₄ b' (by omega) (by omega)) fun _ _ _ => rfl

theorem budgetFree_joinedWithin_succ (hsource : BudgetFree (ρ := ρ) sourceWithin 1 b) :
    BudgetFree (ρ := ρ) joinedWithin 2 (b + 1) := by
  intro s b' hb hb'
  obtain ⟨b', rfl⟩ : ∃ n, b' = n + 1 := ⟨b' - 1, by omega⟩
  unfold joinedWithin
  refine bind_congr (hsource s b' (by omega) (by omega)) fun source s₁ h₁ =>
    bind_congr rfl fun found s₂ h₂ => ?_
  have hle₁ := ((reads_withinBudget b).2.2.2.ok h₁).tokens_le
  have hle₂ := tokens_le_of_parsing movesOn_joinStart? h₂
  cases found with
  | none => rfl
  | some word =>
      refine bind_congr rfl fun _ s₃ h₃ => ?_
      have hle₃ := tokens_le_of_parsing (movesOn_skipWords _) h₃
      exact bind_congr (hsource s₃ b' (by omega) (by omega)) fun _ _ _ => rfl

theorem budgetFree_sourceWithin_succ
    (hselect : ∀ left, BudgetFree (ρ := ρ) (selectWithin · left) 2 b)
    (hjoined : BudgetFree (ρ := ρ) joinedWithin 2 b) :
    BudgetFree (ρ := ρ) sourceWithin 1 (b + 1) := by
  intro s b' hb hb'
  obtain ⟨b', rfl⟩ : ∃ n, b' = n + 1 := ⟨b' - 1, by omega⟩
  unfold sourceWithin
  refine bind_congr rfl fun nested s₁ h₁ => ?_
  cases nested with
  | false => rfl
  | true =>
      have hlt := tokens_lt_of_accept h₁
      refine bind_congr rfl fun isSelect s₂ h₂ => ?_
      have hle := tokens_le_of_parsing (movesOn_accept _) h₂
      cases isSelect with
      | true => exact bind_congr (hselect none s₂ b' (by omega) (by omega)) fun _ _ _ => rfl
      | false => exact bind_congr (hjoined s₂ b' (by omega) (by omega)) fun _ _ _ => rfl

end Loops

/-- The budget of no loop shows if it suffices. -/
theorem budgetFree_withinBudget (b : Nat) :
    (∀ left, BudgetFree (ρ := ρ) (selectWithin · left) 2 b) ∧
      BudgetFree (ρ := ρ) coreWithin 1 b ∧ BudgetFree (ρ := ρ) joinedWithin 2 b ∧
      BudgetFree (ρ := ρ) sourceWithin 1 b := by
  induction b with
  | zero => exact ⟨fun _ s _ hb => by omega, fun s _ hb => by omega, fun s _ hb => by omega,
      fun s _ hb => by omega⟩
  | succ b ih =>
      obtain ⟨hselect, hcore, hjoined, hsource⟩ := ih
      exact ⟨budgetFree_selectWithin_succ hselect hcore, budgetFree_coreWithin_succ hjoined,
        budgetFree_joinedWithin_succ hsource, budgetFree_sourceWithin_succ hselect hjoined⟩

/-- A core, with a budget that suffices. -/
def core : Statement ρ Table := do
  coreWithin (2 * (← tokensLeft) + 1)

/-- On every budget that suffices a core runs as `core` does. -/
theorem coreWithin_eq_core {b : Nat} {s : Session ρ} (h : 2 * s.tokens + 1 ≤ b) :
    coreWithin b s = core s :=
  (budgetFree_withinBudget b).2.1 s _ h (Nat.le_refl _)

end Select

end OnePassSql
