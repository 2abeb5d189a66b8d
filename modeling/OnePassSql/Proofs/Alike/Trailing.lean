import OnePassSql.Proofs.Alike.Select
import OnePassSql.Proofs.Statement.Records
import OnePassSql.Proofs.Token.Cutting

/-!
ORDER BY and LIMIT behind a SELECT that has none. They are read where the last core of a compound
ends, so the cores before them read what they read without them; and what is read there does not
touch the result.
-/

namespace OnePassSql.Select

open Step TokenStream Parse Statement

/-! ## The clauses -/

/-- `ORDER BY ...` and `LIMIT ...`, each if it is there. -/
def clauses : Parse Unit := do
  ordering
  limit

/-- The tokens ahead are such clauses and nothing else. -/
def ReadsClauses (p : Parser) : Prop := ∃ q n, clauses p = .ok ⟨⟩ q ∧ q.ahead = .done n

variable {u v : TokenStream}

theorem actsAlike_clauses (h : WholeTails u v) : Parse.ActsAlike u v clauses :=
  (actsAlike_ordering h).bind fun _ => actsAlike_limit h

/-- Where none of the words comes that start them, nothing is read. -/
theorem clauses_of_not_accept {p : Parser} (horder : accept "ORDER" p = .ok false p)
    (hlimit : accept "LIMIT" p = .ok false p) : clauses p = .ok ⟨⟩ p := by
  rw [clauses, bind_apply_ok (ordering_of_not horder)]
  exact limit_of_not hlimit

theorem clauses_of_done {p : Parser} {n : Nat} (h : p.ahead = .done n) :
    clauses p = .ok ⟨⟩ p :=
  clauses_of_not_accept (accept_of_done h _) (accept_of_done h _)

theorem clauses_of_not_is {p : Parser} {first : Token} {rest : TokenStream}
    (h : p.ahead = .token first rest) (hword : ∀ word ∈ clauseWords, first.is word = false) :
    clauses p = .ok ⟨⟩ p :=
  clauses_of_not_accept (accept_of_not_is h (hword _ (by decide)))
    (accept_of_not_is h (hword _ (by decide)))

theorem movesOn_clauses : MovesOn clauses := movesOn_ordering.bind fun _ => movesOn_limit

/-- If clauses are all that is ahead, then nothing or one of their words comes first. -/
theorem ReadsClauses.ahead {p : Parser} (h : ReadsClauses p) : (∃ n, p.ahead = .done n) ∨
    ∃ first rest, p.ahead = .token first rest ∧ ∃ word ∈ clauseWords, first.is word = true := by
  obtain ⟨q, m, hclauses, hend⟩ := h
  cases hahead : p.ahead with
  | done m => exact .inl ⟨m, rfl⟩
  | token first rest =>
      by_cases hword : ∃ word ∈ clauseWords, first.is word = true
      · exact .inr ⟨first, rest, rfl, hword⟩
      · have hnone : ∀ word ∈ clauseWords, first.is word = false := by simpa using hword
        rw [clauses_of_not_is hahead hnone] at hclauses
        cases hclauses
        cases hahead.symm.trans hend
  | fault ch m =>
      have hmoves : p.ahead.LeadsTo q.ahead := movesOn_clauses.ok hclauses
      rw [hahead, hend] at hmoves
      cases hmoves

theorem ReadsClauses.tails {p : Parser} (h : ReadsClauses p) (n : Nat) :
    Tails (.done n) p.ahead := by
  rcases h.ahead with ⟨m, hahead⟩ | ⟨first, rest, hahead, word, hmem, hreads⟩
  · exact hahead ▸ .ended n m
  · exact hahead ▸ .clause n rest hmem hreads

/-- Clauses read the same wherever their text stands. -/
theorem ReadsClauses.cut {text : List Char} {cursor : Nat} {suffixes : Bool}
    (h : ReadsClauses ⟨cut 0 text, cursor, suffixes⟩) (d : Nat) :
    ReadsClauses ⟨cut d text, cursor, suffixes⟩ := by
  obtain ⟨q, n, hclauses, hend⟩ := h
  have hmoves : (TokenStream.cut 0 text).LeadsTo (.done n) := by
    have hto := movesOn_clauses.ok hclauses
    rw [← hend]
    exact hto
  have habreast := abreast_shift hmoves.ending_eq d
  rw [← cut_add, Nat.zero_add] at habreast
  have hp : Parser.Abreast (.done n) (.done (n + d)) ⟨TokenStream.cut 0 text, cursor, suffixes⟩
      ⟨TokenStream.cut d text, cursor, suffixes⟩ := ⟨habreast, rfl, rfl⟩
  obtain ⟨_, q', hclauses', rfl, hq⟩ :=
    ((actsAlike_clauses (.ended n (n + d))).follows hp).ok hclauses (hend ▸ .refl _)
  have hlast := hq.ahead
  rw [hend] at hlast
  exact ⟨q', n + d, hclauses', hlast.eq_last⟩

/-! ## Texts without such clauses -/

/-- No clauses stand at the end: where they could be read up to the end, nothing is left. -/
def NoTrailingClauses (s : TokenStream) : Prop :=
  ∀ p, s.LeadsTo p.ahead → ReadsClauses p → ∃ n, p.ahead = .done n

theorem NoTrailingClauses.of_leadsTo {s t : TokenStream} (h : NoTrailingClauses s)
    (hst : s.LeadsTo t) : NoTrailingClauses t :=
  fun p ht => h p (hst.trans ht)

/-- A text without the words has no such clauses. -/
theorem noTrailingClauses_of_lacks {s : TokenStream} (h : ∀ word ∈ clauseWords, s.Lacks word) :
    NoTrailingClauses s := by
  intro p hs hreads
  rcases hreads.ahead with hdone | ⟨first, rest, hahead, word, hmem, hword⟩
  · exact hdone
  · rw [hahead] at hs
    have hlacks := hs.lacks (h word hmem) first List.mem_cons_self
    rw [hlacks] at hword
    cases hword

/-! ## A SELECT with clauses behind it -/

section

variable {ρ : Type}

/-- The result of a SELECT behind the compound, when the clauses have been read. -/
theorem tail_eq_ok {result t : Table} {s w : Session ρ} :
    (do (ordering : Parse Unit); (limit : Parse Unit); return result : Statement ρ Table) s
        = .ok t w ↔
      t = result ∧ ∃ p, clauses s.parser = .ok ⟨⟩ p ∧ w = { s with parser := p } := by
  constructor
  · intro h
    obtain ⟨_, s₁, hordering, h⟩ := bind_eq_ok.mp h
    obtain ⟨_, s₂, hlimit, h⟩ := bind_eq_ok.mp h
    obtain ⟨p₁, hp₁, rfl⟩ := parsing_eq_ok.mp hordering
    obtain ⟨p₂, hp₂, rfl⟩ := parsing_eq_ok.mp hlimit
    cases h
    exact ⟨rfl, p₂, bind_eq_ok.mpr ⟨_, p₁, hp₁, hp₂⟩, rfl⟩
  · rintro ⟨rfl, p, hclauses, rfl⟩
    obtain ⟨_, p₁, hp₁, hp₂⟩ := bind_eq_ok.mp hclauses
    exact bind_eq_ok.mpr ⟨_, _, parsing_eq_ok.mpr ⟨p₁, hp₁, rfl⟩,
      bind_eq_ok.mpr ⟨_, _, parsing_eq_ok.mpr ⟨p, hp₂, rfl⟩, rfl⟩⟩

/-- A run that comes to the end of its text gives the same where clauses stand behind that. -/
def EndsSame (v : TokenStream) (x : Statement ρ Table) (s s' : Session ρ) : Prop :=
  ∀ t w n, x s = .ok t w → w.parser.ahead = .done n →
    ReadsClauses { w.parser with ahead := v } →
      ∃ w' m, x s' = .ok t w' ∧ w'.database = w.database ∧ w'.records = w.records ∧
        w'.parser.ahead = .done m

variable {n : Nat} {v : TokenStream} {s s' : Session ρ}

/-- What follows a step that acts alike. -/
theorem endsSame_bind {α : Type} {x : Statement ρ α} {f : α → Statement ρ Table}
    (hs : s.Abreast (.done n) v s') (hx : Statement.ActsAlike (.done n) v x)
    (hf : ∀ a t t', x s = .ok a t → t.Abreast (.done n) v t' → EndsSame v (f a) t t') :
    EndsSame v (x >>= f) s s' := by
  intro r w m hrun hend hreads
  obtain ⟨a, t, hxs, hrun⟩ := bind_eq_ok.mp hrun
  have hview : t.parser.ahead.LeadsTo (.done n) :=
    TokenStream.LeadsTo.to_ending (hx.moves.ok hxs) rfl hs.parser.ahead.leadsTo
  obtain ⟨_, t', hxs', rfl, ht⟩ := (hx.follows hs).ok hxs hview
  rw [bind_apply_ok hxs']
  exact hf a t t' hxs ht r w m hrun hend hreads

/-- The clauses are read where the text without them has come to its end. -/
theorem endsSame_tail (hs : s.Abreast (.done n) v s') (hnone : NoTrailingClauses s.parser.ahead)
    (result : Table) : EndsSame v (do
      (ordering : Parse Unit); (limit : Parse Unit); return result : Statement ρ Table) s s' := by
  intro t w m hrun hend hreads
  obtain ⟨rfl, p, hclauses, rfl⟩ := tail_eq_ok.mp hrun
  obtain ⟨k, hdone⟩ := hnone s.parser (.refl _) ⟨p, m, hclauses, hend⟩
  rw [clauses_of_done hdone] at hclauses
  cases hclauses
  obtain ⟨q, m', hclauses', hend'⟩ := hreads
  have hparser : s'.parser = { s.parser with ahead := v } := by
    have habreast := hs.parser.ahead
    rw [hdone] at habreast
    obtain ⟨rfl⟩ : k = n := by cases habreast; rfl
    rw [← habreast.eq_last]
    dsimp only
    rw [hs.parser.cursor, hs.parser.suffixes]
  exact ⟨{ s' with parser := q }, m', tail_eq_ok.mpr ⟨rfl, q, hparser ▸ hclauses', rfl⟩,
    hs.database.symm, hs.records.symm, hend'⟩

/-- Behind a compound they have been read with its last core, and nothing is left. -/
theorem EndsSame.bind_tail {x : Statement ρ Table} (hx : EndsSame v x s s')
    (hmoves : Respects Session.ReadsTo x) (hnone : NoTrailingClauses s.parser.ahead) :
    EndsSame v (x >>= fun result => do
      (ordering : Parse Unit); (limit : Parse Unit); return result : Statement ρ Table) s s' := by
  intro t w m hrun hend hreads
  obtain ⟨result, w₁, hxs, hrun⟩ := bind_eq_ok.mp hrun
  obtain ⟨rfl, p, hclauses, rfl⟩ := tail_eq_ok.mp hrun
  obtain ⟨k, hdone⟩ := hnone w₁.parser (hmoves.ok hxs).1 ⟨p, m, hclauses, hend⟩
  rw [clauses_of_done hdone] at hclauses
  cases hclauses
  obtain ⟨w', m', hxs', hdatabase, hrecords, hend'⟩ := hx _ _ _ hxs hdone hreads
  exact ⟨w', m', (bind_apply_ok hxs' _).trans (tail_eq_ok.mpr ⟨rfl, _, clauses_of_done hend', rfl⟩),
    hdatabase, hrecords, hend'⟩

variable [Record ρ] {b : Nat}

theorem endsSame_behindCore (h : Tails (.done n) v)
    (hselect : ∀ left {s s' : Session ρ}, s.Abreast (.done n) v s' →
      NoTrailingClauses s.parser.ahead → EndsSame v (selectWithin b left) s s')
    (hs : s.Abreast (.done n) v s') (hnone : NoTrailingClauses s.parser.ahead) (result : Table) :
    EndsSame v (behindCore b result) s s' := by
  refine endsSame_bind hs (runsAlike_parsing (actsAlike_compound? h))
    fun found s₁ s₁' hfound hs₁ => ?_
  have hnone₁ := hnone.of_leadsTo ((reads_parsing movesOn_compound?).ok hfound).1
  cases found with
  | none => exact endsSame_tail hs₁ hnone₁ result
  | some compound =>
      refine endsSame_bind hs₁ (runsAlike_parsing (actsAlike_expect h (by decide)))
        fun _ s₂ s₂' hword hs₂ => ?_
      have hnone₂ := hnone₁.of_leadsTo ((reads_parsing (movesOn_expect _)).ok hword).1
      exact (hselect _ hs₂ hnone₂).bind_tail ((reads_withinBudget b).1 _) hnone₂

/-- With clauses behind it a SELECT gives what it gives without them. -/
theorem endsSame_selectWithin (h : Tails (.done n) v) (b : Nat) (left : Option (Table × Compound))
    (hs : s.Abreast (.done n) v s') (hnone : NoTrailingClauses s.parser.ahead) :
    EndsSame v (selectWithin b left) s s' := by
  induction b generalizing left s s' with
  | zero => exact fun t w m hrun => nomatch hrun
  | succ b ih =>
      rw [selectWithin_succ]
      refine endsSame_bind hs ((actsAlike_withinBudget b).2.1 h) fun core s₁ s₁' hcore hs₁ => ?_
      have hnone₁ := hnone.of_leadsTo ((reads_withinBudget b).2.1.ok hcore).1
      refine endsSame_bind hs₁ (actsAlike_of_offParser (offParser_combine core left))
        fun result s₂ s₂' hresult hs₂ => ?_
      have hnone₂ := hnone₁.of_leadsTo ((reads_combine core left).ok hresult).1
      exact endsSame_behindCore h (fun left {_ _} => ih left) hs₂ hnone₂ result

theorem endsSame_select (h : Tails (.done n) v) (hs : s.Abreast (.done n) v s')
    (hnone : NoTrailingClauses s.parser.ahead) : EndsSame v (select : Statement ρ Table) s s' := by
  -- each run takes its budget from its own tokens, and one that is enough for both gives the same
  let common := max (4 * s.tokens + 4) (4 * s'.tokens + 4)
  have hbudget : ∀ t : Session ρ, 4 * t.tokens + 4 ≤ common →
      (select : Statement ρ Table) t = selectWithin common none t := fun t ht =>
    (budgetFree_withinBudget (4 * t.tokens + 4)).1 none t common (by omega) (by omega)
  have hloop := endsSame_selectWithin h common none hs hnone
  rw [EndsSame, hbudget s (Nat.le_max_left _ _), hbudget s' (Nat.le_max_right _ _)]
  exact hloop

end

end OnePassSql.Select
