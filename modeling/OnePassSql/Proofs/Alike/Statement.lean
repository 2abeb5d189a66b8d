import OnePassSql.Proofs.Alike.Select

/-!
Whole statements act alike where both texts go on with the same: what a statement does depends on
the texts of its tokens and on which of them stand side by side, up to the sign that ends it.
-/

namespace OnePassSql.Statement

open Step TokenStream Parse

variable {ρ : Type} {u v : TokenStream}

section

variable (h : WholeTails u v)

include h

/-! ## CREATE and DROP -/

omit h in
/-- The columns are entered as a table, if its name is free or may be taken over. -/
theorem offParser_enter (name : String) (replace : Bool) (columns : List Column) :
    OffParser (do
      if (← get).database.tables.contains name && !replace then
        throw (.semantic (.tableExists name))
      change (.putTable name ⟨columns, []⟩) : Statement ρ Unit) := by
  refine offParser_get_bind (fun _ _ => rfl) fun s => ?_
  dsimp only
  split
  · exact OffParser.bind (offParser_settle (.error _)) fun _ => offParser_change _
  · exact offParser_change _

omit h in
/-- The definitions are read together with the parenthesis behind them. -/
theorem closedDefinitions_bind {α : Type} (b : Bindings) (f : List Column → Statement ρ α) :
    (do
      let columns ← definitions b ((← tokensLeft) + 1)
      expect ")"
      f columns : Statement ρ α)
      = (onBudget (fun s => s.tokens + 1) fun budget => liftM (closedDefinitions b budget))
        >>= f := by
  funext s
  rw [bind_apply_ok (tokensLeft_apply s)]
  have hread : (liftM (closedDefinitions b (s.tokens + 1)) : Statement ρ (List Column)) = do
      let columns ← definitions b (s.tokens + 1)
      expect ")"
      return columns := by
    rw [closedDefinitions, parsing_bind]
    simp only [parsing_bind]
    rfl
  change _ = ((liftM (closedDefinitions b (s.tokens + 1)) : Statement ρ (List Column)) >>= f) s
  rw [hread]
  simp only [bind_assoc, pure_bind]
  rfl

theorem actsAlike_createTable : ActsAlike u v (createTable : Statement ρ Unit) := by
  have hdefinitions (b : Bindings) : ActsAlike u v
      (onBudget (fun s => s.tokens + 1) fun budget => liftM (closedDefinitions b budget) :
        Statement ρ (List Column)) := by
    refine runsAlike_onBudget (fun budget s other hbudget hother => ?_)
      (fun budget => runsAlike_parsing (actsAlike_closedDefinitions h b budget))
      fun s => Nat.le_refl _
    unfold Session.tokens at hbudget hother
    change parsing (closedDefinitions b budget) s = parsing (closedDefinitions b other) s
    unfold parsing closedDefinitions
    rw [bind_congr (budgetFree_definitions h b budget s.parser other (by omega) (by omega))
      fun _ _ _ => rfl]
  unfold createTable
  refine (runsAlike_parsing (actsAlike_ifExists h true)).bind fun replace =>
    (runsAlike_parsing (actsAlike_expectName h.tails)).bind fun name =>
      (runsAlike_parsing (actsAlike_expect h.tails (by decide))).bind fun _ =>
        (actsAlike_of_offParser offParser_bindings).bind fun b => ?_
  rw [closedDefinitions_bind]
  exact (hdefinitions b).bind fun columns =>
    actsAlike_of_offParser (offParser_enter name replace columns)

theorem actsAlike_create : ActsAlike u v (create : Statement ρ Unit) := by
  refine (runsAlike_parsing
    (actsAlike_acceptOne? h.tails (passes_of_wholeTails h (by decide)))).bind fun _ =>
      (runsAlike_parsing (actsAlike_expectOne h.tails (by decide))).bind fun kind => ?_
  cases kind with
  | table => exact actsAlike_createTable h
  | trigger => exact runsAlike_parsing (actsAlike_trigger h)
  | index => exact runsAlike_parsing (actsAlike_index h)
  | uniqueIndex => exact runsAlike_parsing (actsAlike_uniqueIndex h)
  | view => exact runsAlike_parsing (actsAlike_view h)

theorem actsAlike_drop : ActsAlike u v (drop : Statement ρ Unit) := by
  refine (runsAlike_parsing (actsAlike_expectOne h.tails (by decide))).bind fun kind =>
    (runsAlike_parsing (actsAlike_ifExists h false)).bind fun absent =>
      (runsAlike_parsing (actsAlike_expectName h.tails)).bind fun name => ?_
  split
  · refine actsAlike_of_offParser (offParser_get_bind (fun _ _ => rfl) fun s =>
      (offParser_change _).bind fun _ => ?_)
    split
    · exact offParser_settle (.error _)
    · exact offParser_settle (.ok _)
  · exact runsAlike_pure rfl

/-! ## INSERT, UPDATE and DELETE -/

theorem actsAlike_insertTarget : Parse.ActsAlike u v insertTarget :=
  (actsAlike_orAction h).bind fun _ => (actsAlike_expect h.tails (by decide)).bind fun _ =>
    (actsAlike_expectName h.tails).bind fun _ =>
      (actsAlike_expect h.tails (by decide)).bind fun _ =>
        (actsAlike_commaSeparated h.tails (actsAlike_expectName h.tails)).bind fun _ =>
          (actsAlike_expect h.tails (by decide)).bind fun _ =>
            (actsAlike_expect h.tails (by decide)).bind fun _ =>
              (actsAlike_expect h.tails (by decide)).bind fun _ => runsAlike_pure rfl

theorem actsAlike_insertedCells (b : Bindings) (t : Table) (table : String)
    (columns : List String) : Parse.ActsAlike u v (insertedCells b t table columns) := by
  induction columns with
  | nil => exact runsAlike_throw rfl
  | cons column columns ih =>
      refine (actsAlike_boundExpression h.tails b).bind fun e =>
        (runsAlike_settle _).bind fun value => (runsAlike_settle _).bind fun cell =>
          (actsAlike_accept h.tails (passes_of_wholeTails h (by decide))).bind fun more => ?_
      cases more with
      | true => exact ih.bind fun _ => runsAlike_pure rfl
      | false => exact runsAlike_pure rfl

theorem actsAlike_insertedRow :
    ActsAlike u v (insertedRow : Statement ρ (String × List (Nat × Value))) := by
  refine (runsAlike_parsing (actsAlike_insertTarget h)).bind fun target =>
    (actsAlike_of_offParser (offParser_table _)).bind fun t =>
      (actsAlike_of_offParser offParser_bindings).bind fun b =>
        (runsAlike_parsing (actsAlike_insertedCells h b t _ _)).bind fun result =>
          (runsAlike_parsing (actsAlike_expect h.tails (by decide))).bind fun _ => ?_
  split
  · exact (runsAlike_throw rfl).bind fun _ => runsAlike_pure rfl
  · exact runsAlike_pure rfl

theorem actsAlike_insert [Record ρ] : ActsAlike u v (insert : Statement ρ Table) :=
  (actsAlike_insertedRow h).bind fun _ =>
    (actsAlike_of_offParser (offParser_edit _ _)).bind fun _ => runsAlike_pure rfl

theorem actsAlike_assignment (b : Bindings) : Parse.ActsAlike u v (assignment b) :=
  (actsAlike_expectName h.tails).bind fun _ => (actsAlike_expect h.tails (by decide)).bind fun _ =>
    (actsAlike_boundExpression h.tails b).bind fun _ => runsAlike_pure rfl

/-- The condition and the table of a statement that touches no row. -/
theorem actsAlike_guarded (name report : String) : ActsAlike u v (do
    let _ ← optionalExpression "WHERE" (← bindings)
    let _ ← table name
    return .report report 0 : Statement ρ Table) :=
  (actsAlike_of_offParser offParser_bindings).bind fun b =>
    (runsAlike_parsing (actsAlike_optionalExpression h.tails
      (passes_of_wholeTails h (by decide)) b)).bind fun _ =>
        (actsAlike_of_offParser (offParser_table name)).bind fun _ => runsAlike_pure rfl

theorem actsAlike_update : ActsAlike u v (update : Statement ρ Table) :=
  (runsAlike_parsing (actsAlike_orAction h)).bind fun _ =>
    (runsAlike_parsing (actsAlike_expectName h.tails)).bind fun name =>
      (runsAlike_parsing (actsAlike_expect h.tails (by decide))).bind fun _ =>
        (actsAlike_of_offParser offParser_bindings).bind fun b =>
          (runsAlike_parsing (actsAlike_commaSeparated h.tails (actsAlike_assignment h b))).bind
            fun _ => actsAlike_guarded h name _

theorem actsAlike_delete : ActsAlike u v (delete : Statement ρ Table) :=
  (runsAlike_parsing (actsAlike_expect h.tails (by decide))).bind fun _ =>
    (runsAlike_parsing (actsAlike_expectName h.tails)).bind fun name => actsAlike_guarded h name _

/-! ## Statements about the database -/

theorem actsAlike_pragma : ActsAlike u v (pragma : Statement ρ Table) := by
  refine (runsAlike_parsing (actsAlike_accept h.tails (passes_of_wholeTails h (by decide)))).bind
    fun version => ?_
  split
  · refine (runsAlike_parsing (actsAlike_accept h.tails (passes_of_wholeTails h (by decide)))).bind
      fun assigned => ?_
    split
    · exact (runsAlike_parsing (actsAlike_expectNumber h.tails)).bind fun n =>
        (actsAlike_of_offParser (offParser_change _)).bind fun _ => runsAlike_pure rfl
    · exact actsAlike_of_offParser
        (offParser_get_bind (fun _ _ => rfl) fun _ => offParser_settle (.ok _))
  refine (runsAlike_parsing (actsAlike_accept h.tails (passes_of_wholeTails h (by decide)))).bind
    fun info => ?_
  split
  · exact (runsAlike_parsing (actsAlike_expect h.tails (by decide))).bind fun _ =>
      (runsAlike_parsing (actsAlike_expectName h.tails)).bind fun name =>
        (runsAlike_parsing (actsAlike_expect h.tails (by decide))).bind fun _ =>
          (actsAlike_of_offParser (offParser_table name)).bind fun _ => runsAlike_settle _
  · exact runsAlike_throw rfl

theorem actsAlike_describe : ActsAlike u v (describe : Statement ρ Table) :=
  (runsAlike_parsing (actsAlike_expectName h.tails)).bind fun name =>
    (actsAlike_of_offParser (offParser_table name)).bind fun _ => runsAlike_settle _

theorem actsAlike_endTransaction : Parse.ActsAlike u v endTransaction :=
  (actsAlike_accept h.tails (passes_of_wholeTails h (by decide))).bind fun _ => runsAlike_pure rfl

theorem actsAlike_beginTransaction : Parse.ActsAlike u v beginTransaction :=
  (actsAlike_acceptOne? h.tails (passes_of_wholeTails h (by decide))).bind fun _ =>
    actsAlike_endTransaction h

theorem actsAlike_attach : ActsAlike u v (attach : Statement ρ Unit) := by
  refine (runsAlike_parsing
    (actsAlike_accept h.tails (passes_of_wholeTails h (by decide)))).bind fun _ =>
    (runsAlike_parsing (actsAlike_expectName h.tails)).bind fun file =>
      (runsAlike_parsing (actsAlike_expect h.tails (by decide))).bind fun _ =>
        (runsAlike_parsing (actsAlike_expectName h.tails)).bind fun name => ?_
  refine actsAlike_of_offParser (offParser_get_bind (fun _ _ => rfl) fun s => ?_)
  cases s.database.files.get? file with
  | some database => exact offParser_change _
  | none => exact offParser_settle (.ok _)

omit h in
theorem analyze_of_token {p : Parser} {first : Token} {rest : TokenStream}
    (hp : p.ahead = .token first rest) :
    analyze p = .ok ⟨⟩ (if first.is ";" then p else { p with ahead := rest }) := by
  have hnext : isNext [";"] p = .ok (first.is ";") p := by
    rw [isNext_of_token hp, List.any_cons, List.any_nil, Bool.or_false]
  rw [analyze, bind_apply_ok (atEnd_of_token hp), if_neg (by decide), bind_apply_ok hnext]
  cases first.is ";" with
  | true => rfl
  | false => exact bind_apply_ok (expectName_of_token hp) _

omit h in
theorem analyze_of_done {p : Parser} {n : Nat} (hp : p.ahead = .done n) :
    analyze p = .ok ⟨⟩ p :=
  bind_apply_ok (atEnd_of_done hp) _

omit h in
theorem movesOn_analyze : MovesOn analyze := by
  refine (movesOn_peek.bind fun _ => respects_pure _).bind fun ended => ?_
  split
  · exact respects_pure _
  refine (movesOn_isNext _).bind fun closed => ?_
  split
  · exact respects_pure _
  · exact movesOn_expectName.bind fun _ => respects_pure _

/-- It does not matter by which of its two ends a statement is ended. -/
theorem actsAlike_analyze : Parse.ActsAlike u v analyze := by
  refine ⟨movesOn_analyze, fun {p q} hs => ?_⟩
  have hheads := hs.ahead.heads h.tails
  generalize hp : p.ahead = s at hheads
  generalize hq : q.ahead = s' at hheads
  cases hheads with
  | token htext hadjoins hrest =>
      rw [analyze_of_token hp, analyze_of_token hq, htext.is_eq]
      refine fun _ => ⟨_, _, rfl, rfl, ?_⟩
      split
      · exact hs
      · exact ⟨hrest, hs.cursor, hs.suffixes⟩
  | ended hu hv =>
      rw [analyze_of_done hp, analyze_of_done hq]
      exact fun _ => ⟨_, _, rfl, rfl, hs⟩
  | broken hu hv =>
      have hfirst : LooksFirst analyze := (looksFirst_peek.bind _).bind _
      exact follows_of_broken hfirst hfirst hp hq
  | @closed t t' rest rest' word hu hv htext hword hreads =>
      rw [analyze_of_token hp, analyze_of_token hq, ← htext.is_eq]
      intro hview
      refine ⟨_, _, rfl, rfl, ?_⟩
      cases hsemi : t.is ";" with
      | true => exact hs
      | false =>
          rw [hsemi] at hview
          exact absurd (hu ▸ hview) (not_leadsTo_token t rest)
  | clause hu hv hword hreads =>
      exact absurd ⟨⟨_, hu⟩, _, _, hv, _, hword, hreads⟩ h.not_beforeClause
  | terminated hu hv hsemi =>
      rw [analyze_of_done hp, analyze_of_token hq, if_pos hsemi.2]
      exact fun _ => ⟨_, _, rfl, rfl, hs⟩

/-! ## Statements -/

omit h in
theorem actsAlike_silent {act : Statement ρ Unit} (hact : ActsAlike u v act) :
    ActsAlike u v (silent act) :=
  hact.bind fun _ => runsAlike_pure rfl

theorem actsAlike_handle [Record ρ] (kind : StatementKind) :
    ActsAlike u v (handle kind : Statement ρ Table) := by
  cases kind with
  | create => exact actsAlike_silent (actsAlike_create h)
  | drop => exact actsAlike_silent (actsAlike_drop h)
  | pragma => exact actsAlike_pragma h
  | begin => exact actsAlike_silent (runsAlike_parsing (actsAlike_beginTransaction h))
  | finish => exact actsAlike_silent (runsAlike_parsing (actsAlike_endTransaction h))
  | insert => exact actsAlike_insert h
  | select => exact Select.actsAlike_select h
  | update => exact actsAlike_update h
  | delete => exact actsAlike_delete h
  | attach => exact actsAlike_silent (actsAlike_attach h)
  | analyze => exact actsAlike_silent (runsAlike_parsing (actsAlike_analyze h))
  | describe => exact actsAlike_describe h

theorem actsAlike_run [Record ρ] : ActsAlike u v (run : Statement ρ Table) :=
  (runsAlike_parsing (actsAlike_expectOne h.tails (by decide))).bind (actsAlike_handle h)

/-- Both texts end, by a semicolon or without one, or neither does. -/
theorem follows_ended {s s' : Session ρ} (hs : s.Abreast u v s') (t : Table) :
    Follows (Session.outcomes u v) Eq ((do expectEnd; return t : Statement ρ Table) s)
      ((do expectEnd; return t : Statement ρ Table) s') := by
  have hheads := hs.parser.ahead.heads h.tails
  generalize hp : s.parser.ahead = ahead at hheads
  generalize hq : s'.parser.ahead = ahead' at hheads
  have hended {p : Parser} {s : Session ρ} (h : expectEnd s.parser = .ok ⟨⟩ p) :
      (do expectEnd; return t : Statement ρ Table) s = .ok t { s with parser := p } :=
    bind_apply_ok (parsing_eq_ok.mpr ⟨p, h, rfl⟩) _
  have hrefused {p : Parser} {s : Session ρ} {fault : Fault}
      (h : expectEnd s.parser = .error fault p) :
      (do expectEnd; return t : Statement ρ Table) s = .error fault { s with parser := p } :=
    bind_eq_error.mpr (.inl (parsing_eq_error.mpr ⟨p, h, rfl⟩))
  have htokens {first first' : Token} {rest rest' : TokenStream} (htext : first.SameText first')
      (hp : s.parser.ahead = .token first rest) (hq : s'.parser.ahead = .token first' rest') :
      Follows (Session.outcomes u v) Eq ((do expectEnd; return t : Statement ρ Table) s)
        ((do expectEnd; return t : Statement ρ Table) s') := by
    have hend := expectEnd_of_token hp
    have hend' := expectEnd_of_token hq
    rw [← htext.is_eq] at hend'
    cases hsemi : first.is ";" with
    | true =>
        rw [hsemi, if_pos rfl] at hend hend'
        rw [hended hend, hended hend']
        exact fun hview => ⟨_, _, rfl, rfl, hview, hs.database, hs.records⟩
    | false =>
        rw [hsemi, if_neg Bool.false_ne_true] at hend hend'
        rw [hrefused hend, hrefused hend']
        exact fun _ => ⟨_, _, rfl, rfl, hs.database, hs.records⟩
  cases hheads with
  | token htext _ _ => exact htokens htext hp hq
  | closed _ _ htext _ _ => exact htokens htext hp hq
  | ended hu hv =>
      rw [hended (expectEnd_of_done hp), hended (expectEnd_of_done hq)]
      exact fun hview => ⟨_, _, rfl, rfl, hview, hs.database, hs.records⟩
  | broken hu hv =>
      rw [hrefused (expectEnd_of_fault hp), hrefused (expectEnd_of_fault hq)]
      exact fun _ => ⟨_, _, rfl, rfl, hs.database, hs.records⟩
  | clause hu hv hword hreads =>
      exact absurd ⟨⟨_, hu⟩, _, _, hv, _, hword, hreads⟩ h.not_beforeClause
  | terminated hu hv hsemi =>
      rw [hended (expectEnd_of_done hp), hended (expectEnd_of_semicolon hq hsemi.2)]
      exact fun hview => ⟨_, _, rfl, rfl, hview, hs.database, hs.records⟩

/-- Statements that run alike come out alike. -/
theorem follows_complete_of_run [Record ρ] {s s' : Session ρ} (hview : s.parser.ahead.LeadsTo u)
    (hrun : Follows (Session.comparison u v) Eq (run s) (run s')) :
    Follows (Session.outcomes u v) Eq (complete s) (complete s') := by
  have hmoves : Respects (Session.comparison u v).MovesTo (run : Statement ρ Table) :=
    (actsAlike_run h).moves
  cases hs : run s with
  | error fault w =>
      have hcomplete : complete s = .error fault w := bind_eq_error.mpr (.inl hs)
      rw [hcomplete]
      intro hshow
      obtain ⟨fault', w', hs', hsame, hafter⟩ := hrun.error hs hshow
      exact ⟨fault', w', bind_eq_error.mpr (.inl hs'), hsame, hafter⟩
  | ok t w =>
      have hthen : w.parser.ahead.LeadsTo u →
          Follows (Session.outcomes u v) Eq (complete s) (complete s') := by
        intro hw
        obtain ⟨_, w', hs', rfl, halike⟩ := hrun.ok hs hw
        rw [complete, bind_apply_ok hs, bind_apply_ok hs']
        exact follows_ended h halike t
      have hend : Respects (Session.comparison u v).MovesTo
          (do expectEnd; return t : Statement ρ Table) :=
        (moves_parsing movesOn_expectEnd).bind fun _ => respects_pure _
      cases hcomplete : complete s with
      | ok t' w₂ =>
          intro hview₂
          have hended : (do expectEnd; return t : Statement ρ Table) w = .ok t' w₂ := by
            rwa [complete, bind_apply_ok hs] at hcomplete
          exact (hthen (TokenStream.LeadsTo.trans (hend.ok hended) hview₂)).ok hcomplete hview₂
      | error fault w₂ =>
          intro hshow
          exact (hthen (TokenStream.LeadsTo.to_ending (hmoves.ok hs) hshow.ending_eq hview)).error
            hcomplete hshow

theorem follows_complete [Record ρ] {s s' : Session ρ} (hs : s.Abreast u v s') :
    Follows (Session.outcomes u v) Eq (complete s) (complete s') :=
  follows_complete_of_run h hs.parser.ahead.leadsTo ((actsAlike_run h).follows hs)

end

/-- A statement only takes tokens. -/
theorem leadsTo_of_run [Record ρ] {s t : Session ρ} {result : Table} (h : run s = .ok result t) :
    s.parser.ahead.LeadsTo t.parser.ahead :=
  (actsAlike_run (.ended 0 0)).moves.ok h

theorem leadsTo_of_complete [Record ρ] {s t : Session ρ} {result : Table}
    (h : complete s = .ok result t) : s.parser.ahead.LeadsTo t.parser.ahead := by
  have hmoves : Respects (Session.comparison (.done 0) (.done 0)).MovesTo
      (complete : Statement ρ Table) :=
    (actsAlike_run (.ended 0 0)).moves.bind fun _ =>
      (moves_parsing movesOn_expectEnd).bind fun _ => respects_pure _
  exact hmoves.ok h

end OnePassSql.Statement
