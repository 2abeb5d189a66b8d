import OnePassSql.Proofs.Alike.Session

/-!
A SELECT acts alike where both texts go on with the same. Its cores and their sources do so also
where only one text goes on, with a clause behind them: a SELECT among their sources is closed by a
parenthesis, which both texts share, before the other one goes on.
-/

namespace OnePassSql.Select

open Step TokenStream Parse Statement

variable {ρ α β : Type} {u v : TokenStream}

theorem offParser_extract [Record ρ] (t : Table) (columns : Option (List Expr))
    (predicate : Option Expr) : OffParser (extract t columns predicate : Statement ρ Table) :=
  offParser_get_bind (fun _ _ => rfl) fun _ => offParser_settle _

theorem offParser_unite [Record ρ] (t other : Table) :
    OffParser (unite t other : Statement ρ Table) := by
  intro s p
  unfold unite
  dsimp only
  cases Edit.union other ⟨t, s.records⟩ <;> rfl

theorem offParser_combine [Record ρ] (t : Table) (left : Option (Table × Compound)) :
    OffParser (combine t left : Statement ρ Table) := by
  cases left with
  | none => exact offParser_settle (.ok t)
  | some left =>
      obtain ⟨other, compound⟩ := left
      cases compound with
      | union => exact offParser_unite t other
      | intersect => exact offParser_settle (.error _)
      | except => exact offParser_settle (.error _)

/-! ## What is closed by a parenthesis -/

/-- A step that ends before a parenthesis has seen only what both texts have before it. -/
theorem ok_of_closed {x : Statement ρ α} {s s' t : Session ρ} {a : α} {first : Token}
    {rest : TokenStream}
    (hx : ∀ {u₁ v₁ : TokenStream}, WholeTails u₁ v₁ → Statement.ActsAlike u₁ v₁ x)
    (hs : s.Abreast u v s') (hxs : x s = .ok a t) (hahead : t.parser.ahead = .token first rest)
    (hclosed : first.is ")" = true) (hrest : rest.LeadsTo u) :
    ∃ t', x s' = .ok a t' ∧ t.Abreast u v t' := by
  have hmoves : s.parser.ahead.LeadsTo (.token first rest) := by
    have hto : (Session.comparison (.done 0) (.done 0)).MovesTo s t :=
      (hx (WholeTails.ended 0 0)).moves.ok hxs
    rw [← hahead]
    exact hto
  obtain ⟨v₁, hlast, hbefore⟩ := hs.parser.ahead.split hmoves (.token first hrest)
  cases hlast with
  | last => exact absurd hrest (not_leadsTo_token _ _)
  | @token _ first' _ rest' htext hadjoins habreast =>
      have hsame := WholeTails.closed rest rest' htext (by decide) hclosed
      have hs₁ : s.Abreast (.token first rest) (.token first' rest') s' :=
        ⟨⟨hbefore, hs.parser.cursor, hs.parser.suffixes⟩, hs.database, hs.records⟩
      obtain ⟨_, t', hxs', rfl, ht⟩ := ((hx hsame).follows hs₁).ok hxs (hahead ▸ .refl _)
      refine ⟨t', hxs', ⟨?_, ht.parser.cursor, ht.parser.suffixes⟩, ht.database, ht.records⟩
      have hahead' := ht.parser.ahead
      rw [hahead] at hahead' ⊢
      rw [hahead'.eq_last]
      exact .token htext hadjoins habreast

/-- What is closed by a parenthesis acts alike if it does so up to every parenthesis. -/
theorem actsAlike_closed (h : Tails u v) {x : Statement ρ α} {f : α → Statement ρ β}
    (hx : ∀ {u₁ v₁ : TokenStream}, WholeTails u₁ v₁ → Statement.ActsAlike u₁ v₁ x)
    (hf : ∀ a, Statement.ActsAlike u v (f a)) :
    Statement.ActsAlike u v (do let a ← x; expect ")"; f a : Statement ρ β) := by
  have hclose : ∀ a, Statement.ActsAlike u v (do expect ")"; f a : Statement ρ β) := fun a =>
    (runsAlike_parsing (actsAlike_expect h (by decide))).bind fun _ => hf a
  by_cases hbefore : BeforeClause u v
  · constructor
    · exact Respects.bind (hx (WholeTails.ended 0 0)).moves fun a => (hclose a).moves
    intro s s' hs
    cases hrun : (do let a ← x; expect ")"; f a : Statement ρ β) s with
    | error e w =>
        intro hshow
        obtain ⟨⟨n, rfl⟩, t, rest, rfl, word, hword, hreads⟩ := hbefore
        exact absurd hshow (not_shows_clause hword hreads)
    | ok c w =>
        intro hview
        obtain ⟨a, t, hxs, hrun⟩ := bind_eq_ok.mp hrun
        obtain ⟨_, t₂, hexpect, hfa⟩ := bind_eq_ok.mp hrun
        obtain ⟨p, hp, rfl⟩ := parsing_eq_ok.mp hexpect
        obtain ⟨first, rest, hmeaning, hahead, rfl⟩ := expectOne_eq_ok hp
        have hclosed : first.is ")" = true := by simpa [meaning?] using hmeaning
        have hrest : rest.LeadsTo u := TokenStream.LeadsTo.trans ((hf a).moves.ok hfa) hview
        obtain ⟨t', hxs', ht⟩ := ok_of_closed hx hs hxs hahead hclosed hrest
        rw [bind_apply_ok hxs']
        exact ((hclose a).follows ht).ok hrun hview
  · exact (hx ⟨h, hbefore⟩).bind hclose

section Loops

/-! Behind the source of a core it does not matter which tables the two runs have from it, as long
as these are related. -/

theorem runsAlike_renamed (h : Tails u v) {V : Table → Table → Prop} {t t' : Table} (hV : V t t') :
    RunsAlike (Session.comparison u v) V (renamed t : Statement ρ Table) (renamed t') := by
  refine (runsAlike_parsing (actsAlike_accept h (passes_of_tails h (by decide)))).bind
    fun named => ?_
  cases named with
  | true =>
      exact (runsAlike_parsing (runsAlike_expectToken h)).bind_of_total
        (fun t => ⟨t, .refl t⟩) fun _ _ _ => runsAlike_pure hV
  | false => exact runsAlike_pure hV

variable [Record ρ] {b : Nat}

theorem runsAlike_joinedBehind (h : Tails u v)
    (hsource : Statement.ActsAlike u v (sourceWithin b : Statement ρ Table))
    {V : Table → Table → Prop} {t t' : Table} (hV : V t t') :
    RunsAlike (Session.comparison u v) V (joinedBehind b t : Statement ρ Table)
      (joinedBehind b t') := by
  refine (runsAlike_parsing (actsAlike_joinStart? h)).bind fun found => ?_
  cases found with
  | none => exact runsAlike_pure hV
  | some word =>
      exact (runsAlike_parsing (actsAlike_skipWords h (by decide))).bind fun _ =>
        hsource.bind fun _ => (runsAlike_parsing (actsAlike_joinCondition h)).bind fun _ =>
          runsAlike_throw rfl

theorem actsAlike_behindSource (h : Tails u v) (columns : Option (List Expr)) (t : Table) :
    Statement.ActsAlike u v (behindSource columns t : Statement ρ Table) :=
  (actsAlike_of_offParser offParser_bindings).bind fun b =>
    (runsAlike_parsing (actsAlike_optionalExpression h (passes_of_tails h (by decide)) b)).bind
      fun predicate => (runsAlike_parsing (actsAlike_grouping h)).bind fun _ =>
        actsAlike_of_offParser (offParser_extract _ _ _)

theorem actsAlike_coreWithin_succ (h : Tails u v)
    (hjoined : Statement.ActsAlike u v (joinedWithin b : Statement ρ Table)) :
    Statement.ActsAlike u v (coreWithin (b + 1) : Statement ρ Table) := by
  refine (runsAlike_parsing (actsAlike_acceptOne? h (passes_of_tails h (by decide)))).bind fun _ =>
    (actsAlike_of_offParser offParser_bindings).bind fun b =>
      (runsAlike_parsing (actsAlike_resultColumns h b)).bind fun columns =>
        (runsAlike_parsing (actsAlike_accept h (passes_of_tails h (by decide)))).bind
          fun hasSource => ?_
  have hrest := actsAlike_behindSource (ρ := ρ) h columns
  split
  · exact hjoined.bind hrest
  split
  · exact (runsAlike_throw rfl).bind hrest
  · exact (runsAlike_pure rfl).bind hrest

theorem actsAlike_joinedWithin_succ (h : Tails u v)
    (hsource : Statement.ActsAlike u v (sourceWithin b : Statement ρ Table)) :
    Statement.ActsAlike u v (joinedWithin (b + 1) : Statement ρ Table) := by
  rw [joinedWithin_succ]
  exact hsource.bind fun source => runsAlike_joinedBehind h hsource rfl

theorem actsAlike_sourceWithin_succ (h : Tails u v)
    (hselect : ∀ {u v : TokenStream}, WholeTails u v →
      Statement.ActsAlike u v (selectWithin b none : Statement ρ Table))
    (hjoined : Statement.ActsAlike u v (joinedWithin b : Statement ρ Table)) :
    Statement.ActsAlike u v (sourceWithin (b + 1) : Statement ρ Table) := by
  refine (runsAlike_parsing (actsAlike_accept h (passes_of_tails h (by decide)))).bind
    fun nested => ?_
  have hrest (source : Table) : Statement.ActsAlike u v (renamed source : Statement ρ Table) :=
    runsAlike_renamed h rfl
  cases nested with
  | true =>
      refine (runsAlike_parsing (actsAlike_accept h (passes_of_tails h (by decide)))).bind
        fun isSelect => ?_
      cases isSelect with
      | true => exact actsAlike_closed h hselect fun _ => (runsAlike_pure rfl).bind hrest
      | false =>
          exact hjoined.bind fun _ => (runsAlike_parsing (actsAlike_expect h (by decide))).bind
            fun _ => (runsAlike_pure rfl).bind hrest
  | false =>
      exact (runsAlike_parsing (actsAlike_expectName h)).bind fun name =>
        (actsAlike_of_offParser (offParser_table name)).bind hrest

theorem actsAlike_behindCore (h : WholeTails u v)
    (hselect : ∀ left, Statement.ActsAlike u v (selectWithin b left : Statement ρ Table))
    (result : Table) : Statement.ActsAlike u v (behindCore b result : Statement ρ Table) := by
  have htail : ∀ result : Table, Statement.ActsAlike u v (do
      (ordering : Parse Unit); (limit : Parse Unit); return result : Statement ρ Table) :=
    fun result => (runsAlike_parsing (actsAlike_ordering h)).bind fun _ =>
      (runsAlike_parsing (actsAlike_limit h)).bind fun _ => runsAlike_pure rfl
  refine (runsAlike_parsing (actsAlike_compound? h.tails)).bind fun found => ?_
  cases found with
  | none => exact (runsAlike_pure rfl).bind htail
  | some compound =>
      exact (runsAlike_parsing (actsAlike_expect h.tails (by decide))).bind fun _ =>
        (hselect _).bind htail

theorem actsAlike_selectWithin_succ (h : WholeTails u v)
    (hselect : ∀ left, Statement.ActsAlike u v (selectWithin b left : Statement ρ Table))
    (hcore : Statement.ActsAlike u v (coreWithin b : Statement ρ Table))
    (left : Option (Table × Compound)) :
    Statement.ActsAlike u v (selectWithin (b + 1) left : Statement ρ Table) := by
  rw [selectWithin_succ]
  exact hcore.bind fun core => (actsAlike_of_offParser (offParser_combine core left)).bind fun _ =>
    actsAlike_behindCore h hselect _

end Loops

/-- All the loops of a SELECT act alike, on whatever budget. -/
theorem actsAlike_withinBudget [Record ρ] (b : Nat) :
    (∀ {u v : TokenStream}, WholeTails u v → ∀ left,
        Statement.ActsAlike u v (selectWithin b left : Statement ρ Table)) ∧
      (∀ {u v : TokenStream}, Tails u v →
        Statement.ActsAlike u v (coreWithin b : Statement ρ Table)) ∧
      (∀ {u v : TokenStream}, Tails u v →
        Statement.ActsAlike u v (joinedWithin b : Statement ρ Table)) ∧
      ∀ {u v : TokenStream}, Tails u v →
        Statement.ActsAlike u v (sourceWithin b : Statement ρ Table) := by
  induction b with
  | zero =>
      exact ⟨fun _ _ => runsAlike_throw rfl, fun _ => runsAlike_throw rfl,
        fun _ => runsAlike_throw rfl, fun _ => runsAlike_throw rfl⟩
  | succ b ih =>
      obtain ⟨hselect, hcore, hjoined, hsource⟩ := ih
      exact ⟨fun h left => actsAlike_selectWithin_succ h (hselect h) (hcore h.tails) left,
        fun h => actsAlike_coreWithin_succ h (hjoined h),
        fun h => actsAlike_joinedWithin_succ h (hsource h),
        fun h => actsAlike_sourceWithin_succ h (fun h => hselect h none) (hjoined h)⟩

theorem actsAlike_select [Record ρ] (h : WholeTails u v) :
    Statement.ActsAlike u v (select : Statement ρ Table) := by
  have henough (s : Session ρ) : 2 * s.tokens + 2 ≤ 4 * s.tokens + 4 := by omega
  exact runsAlike_onBudget (fun b s other => (budgetFree_withinBudget b).1 none s other)
    (fun b => (actsAlike_withinBudget b).1 h none) henough

end OnePassSql.Select
