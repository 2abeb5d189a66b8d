import OnePassSql.Proofs.Alike.Statement
import OnePassSql.Proofs.Database.Records
import OnePassSql.Proofs.Table.Composition

/-!
A SELECT from a table, and the same SELECT from `SELECT *` of that table in parentheses. The two
read the same up to the source and again behind it, and what their sources differ in shows in
nothing that is extracted from them.
-/

namespace OnePassSql.Select

open Step TokenStream Parse Statement

/-! ## The two texts -/

/-- What stands between SELECT and FROM. -/
def head (b : Bindings) : Parse (Option (List Expr)) := do
  let _ ← acceptOne? (plainWords ["ALL", "DISTINCT"])
  resultColumns b

/-- Tokens that read `( SELECT * FROM name )`, with `rest` behind them. -/
inductive Nests (name : Token) (rest : TokenStream) : TokenStream → Prop where
  | intro {opening select star source name' closing : Token} : opening.is "(" = true →
      select.is "SELECT" = true → star.is "*" = true → source.is "FROM" = true →
      name.SameText name' → closing.is ")" = true →
      Nests name rest (.token opening (.token select (.token star (.token source
        (.token name' (.token closing rest))))))

/-- The first text is a SELECT from `name`, and the second one differs from it in that
`( SELECT * FROM name )` stands where the name does. Neither has a lexical fault. -/
inductive NestsSource (b : Bindings) (name : Token) : TokenStream → TokenStream → Prop where
  | intro {s s' rest rest' nested : TokenStream} {source source' : Token} {p q : Parser}
      {columns : Option (List Expr)} {n n' : Nat} :
      expectOne firstWords ⟨s, 0, true⟩ = .ok .select p → head b p = .ok columns q →
      q.ahead = .token source (.token name rest) → source.is "FROM" = true →
      source.SameText source' → name.is "(" = false → Nests name rest' nested →
      Abreast (.token source (.token name rest)) (.token source' nested) s s' →
      Abreast (.done n) (.done n') rest rest' → NestsSource b name s s'

section

variable {u v : TokenStream} {p p' q : Parser}

theorem actsAlike_head (h : Tails u v) (b : Bindings) : Parse.ActsAlike u v (head b) :=
  (actsAlike_acceptOne? h (passes_of_tails h (by decide))).bind fun _ => actsAlike_resultColumns h b

/-- A step up to the word FROM is taken in both texts, and both stand there. -/
theorem ok_of_upTo {α : Type} {x : Parse α} {source source' : Token} {rest rest' : TokenStream}
    {a : α} (hx : ∀ {u v : TokenStream}, WholeTails u v → Parse.ActsAlike u v x)
    (hsource : source.is "FROM" = true) (htext : source.SameText source')
    (hp : p.Abreast (.token source rest) (.token source' rest') p') (hrun : x p = .ok a q)
    (hview : q.ahead.LeadsTo (.token source rest)) :
    ∃ q', x p' = .ok a q' ∧ q.Abreast (.token source rest) (.token source' rest') q' := by
  have hsame := WholeTails.closed rest rest' htext (by decide) hsource
  obtain ⟨_, q', hrun', rfl, hq⟩ := ((hx hsame).follows hp).ok hrun hview
  exact ⟨q', hrun', hq⟩

end

/-! ## What is read from the sources -/

section Sources

variable {ρ : Type} [Record ρ] {p p₁ p₂ : Parser} {db : Database} {records : Records ρ}
  {budget : Nat} {columns : Option (List Expr)}

/-- A core with a source, behind the word FROM. -/
theorem coreWithin_of_head (hhead : head db.bindings p = .ok columns p₁)
    (hfrom : accept "FROM" p₁ = .ok true p₂) (records : Records ρ) (budget : Nat) :
    coreWithin (budget + 1) ⟨p, db, records⟩
      = (joinedWithin budget >>= behindSource columns) ⟨p₂, db, records⟩ := by
  obtain ⟨_, p₀, hall, hcolumns⟩ := bind_eq_ok.mp hhead
  rw [coreWithin, bind_apply_ok (lift_apply hall db records), bind_apply_ok (bindings_apply _),
    bind_apply_ok (lift_apply hcolumns db records), bind_apply_ok (lift_apply hfrom db records)]
  rfl

variable {name : Token} {rest nested : TokenStream} {cursor : Nat} {suffixes : Bool} {t : Table}

theorem sourceWithin_of_name (hname : name.is "(" = false)
    (ht : db.tables.get? name.name = some t) :
    sourceWithin (budget + 1) ⟨⟨.token name rest, cursor, suffixes⟩, db, records⟩
      = renamed t ⟨⟨rest, cursor, suffixes⟩, db, records⟩ := by
  let p : Parser := ⟨.token name rest, cursor, suffixes⟩
  have hplain : accept "(" p = .ok false p := accept_of_not_is rfl hname
  have htoken : expectName p = .ok name.name ⟨rest, cursor, suffixes⟩ := expectName_of_token rfl
  rw [sourceWithin, bind_apply_ok (lift_apply hplain db records)]
  dsimp only
  rw [if_neg Bool.false_ne_true, bind_apply_ok (lift_apply htoken db records),
    bind_apply_ok (table_apply ht)]
  rfl

/-- Before a closing parenthesis no clause is read. -/
theorem readsStar_of_closing {star source closing : Token} (hstar : star.is "*" = true)
    (hsource : source.is "FROM" = true) (hname : name.is "(" = false)
    (hclosing : closing.is ")" = true) :
    ReadsStar ⟨.token star (.token source (.token name (.token closing rest))), cursor, suffixes⟩
      name.name ⟨.token closing rest, cursor, suffixes⟩ :=
  .intro (acceptOne?_of_is rfl hstar rfl) (accept_of_is rfl hstar) (accept_of_is rfl hsource)
    (accept_of_not_is rfl hname) (expectName_of_token rfl) (accept_of_is_other rfl hclosing rfl)
    (acceptOne?_of_is rfl hclosing rfl) (accept_of_is_other rfl hclosing rfl)
    (accept_of_is_other rfl hclosing rfl)

/-- A SELECT that is closed by a parenthesis ends with its first core. -/
theorem selectWithin_of_closing {closing : Token} {s : Session ρ}
    (hcore : coreWithin budget s = .ok t ⟨⟨.token closing rest, cursor, suffixes⟩, db, records⟩)
    (hclosing : closing.is ")" = true) :
    selectWithin (budget + 1) none s
      = .ok t ⟨⟨.token closing rest, cursor, suffixes⟩, db, records⟩ := by
  let p : Parser := ⟨.token closing rest, cursor, suffixes⟩
  have hcompound : compound? p = .ok none p := by
    rw [compound?, bind_apply_ok (acceptOne?_of_is rfl hclosing rfl)]
    rfl
  exact selectWithin_last hcore rfl (lift_apply hcompound db records)
    (lift_apply (ordering_of_not (accept_of_is_other rfl hclosing rfl)) db records)
    (lift_apply (limit_of_not (accept_of_is_other rfl hclosing rfl)) db records)

theorem sourceWithin_of_nests (h : Nests name rest nested) (hname : name.is "(" = false)
    (ht : db.tables.get? name.name = some t) :
    sourceWithin (budget + 5) ⟨⟨nested, cursor, suffixes⟩, db, records⟩
      = renamed ⟨t.columns.map Column.fresh, t.rows⟩ ⟨⟨rest, cursor, suffixes⟩, db, records⟩ := by
  obtain ⟨hopening, hselect, hstar, hsource, htext, hclosing⟩ := h
  have hstars : ReadsStar ⟨.token _ (.token _ (.token _ (.token _ rest))), cursor, suffixes⟩ _
      ⟨.token _ rest, cursor, suffixes⟩ :=
    readsStar_of_closing hstar hsource (htext.is_eq "(" ▸ hname) hclosing
  have hselected := selectWithin_of_closing
    (coreWithin_star hstars (htext.name_eq ▸ ht) records budget) hclosing
  have hclosed : expect ")" ⟨.token _ rest, cursor, suffixes⟩ = .ok ⟨⟩ ⟨rest, cursor, suffixes⟩ :=
    expectOne_of_is rfl hclosing (meaning?_self ")" ())
  rw [sourceWithin, bind_apply_ok (lift_apply (accept_of_is rfl hopening) db records)]
  dsimp only
  rw [if_pos rfl, bind_apply_ok (lift_apply (accept_of_is rfl hselect) db records)]
  dsimp only
  rw [if_pos rfl, bind_apply_ok hselected, bind_apply_ok (lift_apply hclosed db records),
    bind_apply_ok (pure_apply _ _)]
  rfl

end Sources

/-! ## What is made of them -/

section Follows

variable {ρ : Type} [Record ρ] {t t' : Table}

/-- What is extracted from the tables is the same, on whatever records. -/
def SameExtracts (ρ : Type) [Record ρ] (t t' : Table) : Prop :=
  ∀ (records : Records ρ) columns predicate,
    t'.extract records columns predicate = t.extract records columns predicate

/-- `SELECT *` of a table shows all that the table does. -/
theorem sameExtracts_fresh (ρ : Type) [Record ρ] (t : Table) :
    SameExtracts ρ t ⟨t.columns.map Column.fresh, t.rows⟩ := by
  intro records columns predicate
  obtain ⟨t', ht', hsame⟩ := Table.exists_extract_rows records t
  rw [Table.extract_all] at ht'
  cases ht'
  exact hsame columns predicate

theorem SameExtracts.behindSource_eq (h : SameExtracts ρ t t') (columns : Option (List Expr)) :
    (behindSource columns t' : Statement ρ Table) = behindSource columns t := by
  have hextract (predicate : Option Expr) :
      (extract t' columns predicate : Statement ρ Table) = extract t columns predicate := by
    refine funext fun s => ?_
    rw [extract, extract, bind_apply_ok (get_apply s), bind_apply_ok (get_apply s), h]
  unfold behindSource
  simp only [hextract]

/-! ## The run with the name and the run with the nested SELECT

The states are not alike before the source has been read, so each step of the two runs up to it is
taken apart by hand; behind the source all steps are alike. -/

variable {n n' : Nat} {db : Database} {name source source' : Token}
  {rest rest' nested : TokenStream} (hrest : Abreast (.done n) (.done n') rest rest')
  (hnested : Nests name rest' nested) (hname : name.is "(" = false)
  (ht : db.tables.get? name.name = some t) (records : Records ρ) (budget : Nat)

include hrest hnested hname ht

theorem follows_sourceWithin (cursor : Nat) (suffixes : Bool) :
    Follows (Session.comparison (.done n) (.done n')) (SameExtracts ρ)
      (sourceWithin (budget + 5) ⟨⟨.token name rest, cursor, suffixes⟩, db, records⟩)
      (sourceWithin (budget + 5) ⟨⟨nested, cursor, suffixes⟩, db, records⟩) := by
  rw [sourceWithin_of_name hname ht, sourceWithin_of_nests hnested hname ht]
  exact (runsAlike_renamed (.ended n n') (sameExtracts_fresh ρ t)).follows
    ⟨⟨hrest, rfl, rfl⟩, rfl, rfl⟩

theorem follows_joinedWithin (cursor : Nat) (suffixes : Bool) :
    Follows (Session.comparison (.done n) (.done n')) (SameExtracts ρ)
      (joinedWithin (budget + 6) ⟨⟨.token name rest, cursor, suffixes⟩, db, records⟩)
      (joinedWithin (budget + 6) ⟨⟨nested, cursor, suffixes⟩, db, records⟩) := by
  have htails : Tails (.done n) (.done n') := .ended n n'
  have hsource : Statement.ActsAlike (.done n) (.done n')
      (sourceWithin (budget + 5) : Statement ρ Table) := (actsAlike_withinBudget _).2.2.2 htails
  rw [joinedWithin_succ]
  exact follows_bind_of_inView (.token name hrest.leadsTo) (hsource.moves _)
    (follows_sourceWithin hrest hnested hname ht records budget cursor suffixes)
    (fun _ s _ => (runsAlike_joinedBehind (V := Eq) htails hsource rfl).moves s)
    fun _ _ _ _ _ _ hsame halike =>
      (runsAlike_joinedBehind htails hsource hsame).follows halike

variable {p p' q : Parser} {columns : Option (List Expr)}
  (hhead : head db.bindings p = .ok columns q)
  (hahead : q.ahead = .token source (.token name rest)) (hsource : source.is "FROM" = true)
  (htext : source.SameText source')
  (hp : p.Abreast (.token source (.token name rest)) (.token source' nested) p')

include hhead hahead hsource htext hp

theorem follows_coreWithin :
    Follows (Session.comparison (.done n) (.done n')) Eq
      (coreWithin (budget + 7) ⟨p, db, records⟩ : EStateM.Result Fault (Session ρ) Table)
      (coreWithin (budget + 7) ⟨p', db, records⟩) := by
  have htails : Tails (.done n) (.done n') := .ended n n'
  obtain ⟨q', hhead', hq⟩ := ok_of_upTo (fun h => actsAlike_head h.tails db.bindings) hsource htext
    hp hhead (hahead ▸ .refl _)
  have hahead' : q'.ahead = .token source' nested := by
    have hlast := hq.ahead
    rw [hahead] at hlast
    exact hlast.eq_last
  have hsource' : source'.is "FROM" = true := htext.is_eq "FROM" ▸ hsource
  rw [coreWithin_of_head hhead (accept_of_is hahead hsource),
    coreWithin_of_head hhead' (accept_of_is hahead' hsource'), ← hq.cursor, ← hq.suffixes]
  refine follows_bind_of_inView (.token name hrest.leadsTo)
    (((actsAlike_withinBudget _).2.2.1 htails).moves _)
    (follows_joinedWithin hrest hnested hname ht records budget q.cursor q.suffixes)
    (fun t s _ => (actsAlike_behindSource htails columns t).moves s)
    fun t s t' s' _ _ hsame halike => ?_
  rw [hsame.behindSource_eq columns]
  exact (actsAlike_behindSource htails columns t).follows halike

theorem follows_selectWithin :
    Follows (Session.comparison (.done n) (.done n')) Eq
      (selectWithin (budget + 8) none ⟨p, db, records⟩ : EStateM.Result Fault (Session ρ) Table)
      (selectWithin (budget + 8) none ⟨p', db, records⟩) := by
  have htails : WholeTails (.done n) (.done n') := .ended n n'
  have hbehind (core : Table) : Statement.ActsAlike (.done n) (.done n')
      (combine core none >>= behindCore (budget + 7) : Statement ρ Table) :=
    (actsAlike_of_offParser (offParser_combine core none)).bind fun _ =>
      actsAlike_behindCore htails (fun left => (actsAlike_withinBudget _).1 htails left) _
  have hview : p.ahead.LeadsTo (.done n) :=
    hp.ahead.leadsTo.trans (.token source (.token name hrest.leadsTo))
  rw [selectWithin_succ]
  refine follows_bind_of_inView hview (((actsAlike_withinBudget _).2.1 htails.tails).moves _)
    (follows_coreWithin hrest hnested hname ht records budget hhead hahead hsource htext hp)
    (fun core s _ => (hbehind core).moves s) fun core s core' s' _ _ hsame halike => ?_
  rw [← hsame]
  exact (hbehind core).follows halike

/-- Each run takes its budget from its own tokens, and one that is enough for both gives the same.
-/
theorem follows_select :
    Follows (Session.comparison (.done n) (.done n')) Eq
      (select ⟨p, db, records⟩ : EStateM.Result Fault (Session ρ) Table)
      (select ⟨p', db, records⟩) := by
  let common := 4 * p.ahead.length + 4 * p'.ahead.length + 4
  have hbudget (t : Session ρ) (hle : 4 * t.tokens + 4 ≤ common + 8) :
      (select : Statement ρ Table) t = selectWithin (common + 8) none t :=
    (budgetFree_withinBudget (4 * t.tokens + 4)).1 none t (common + 8) (by omega) (by omega)
  rw [hbudget ⟨p, db, records⟩ (by dsimp only [Session.tokens]; omega),
    hbudget ⟨p', db, records⟩ (by dsimp only [Session.tokens]; omega)]
  exact follows_selectWithin hrest hnested hname ht records common hhead hahead hsource htext hp

end Follows

/-! ## Whole statements -/

section Whole

variable {ρ : Type} [Record ρ] {db : Database}

theorem run_of_select {p q : Parser} (h : expectOne firstWords p = .ok .select q)
    (records : Records ρ) :
    (run ⟨p, db, records⟩ : EStateM.Result Fault (Session ρ) Table) = select ⟨q, db, records⟩ := by
  rw [run, bind_apply_ok (lift_apply h db records)]
  rfl

/-- The two texts run to the same end. -/
theorem follows_nested {name : Token} {t : Table} {s s' : TokenStream}
    (h : NestsSource db.bindings name s s') (ht : db.tables.get? name.name = some t)
    (records : Records ρ) :
    ∃ n n', s.LeadsTo (.done n) ∧ Follows (Session.outcomes (.done n) (.done n')) Eq
      (complete ⟨⟨s, 0, true⟩, db, records⟩ : EStateM.Result Fault (Session ρ) Table)
      (complete ⟨⟨s', 0, true⟩, db, records⟩) := by
  obtain @⟨rest, rest', nested, source, source', p, q, columns, n, n', hword, hhead, hahead,
    hsource, htext, hname, hnested, hbefore, hrest⟩ := h
  have hs : Parser.Abreast (.token source (.token name rest)) (.token source' nested) ⟨s, 0, true⟩
      ⟨s', 0, true⟩ := ⟨hbefore, rfl, rfl⟩
  have hview : s.LeadsTo (.done n) :=
    hbefore.leadsTo.trans (.token source (.token name hrest.leadsTo))
  have hmoves : p.ahead.LeadsTo q.ahead :=
    (actsAlike_head (.ended 0 0) db.bindings).movesOn.ok hhead
  obtain ⟨p', hword', hp⟩ := ok_of_upTo (fun h => actsAlike_expectOne h.tails (by decide)) hsource
    htext hs hword (hahead ▸ hmoves)
  refine ⟨n, n', hview, follows_complete_of_run (.ended n n') hview ?_⟩
  rw [run_of_select hword, run_of_select hword']
  exact follows_select hrest hnested hname ht records hhead hahead hsource htext hp

end Whole

end OnePassSql.Select
