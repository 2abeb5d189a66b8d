import OnePassSql.Proofs.Database.Taxonomy
import OnePassSql.Proofs.Parser.ScanningRounds
import OnePassSql.Proofs.Statement.Segments
import OnePassSql.Proofs.Token.Cutting

/-!
Reading a text ends. Wherever in it reading has come to, the expressions, the loops of the clauses
and the SELECTs end on every budget that is taken from the length of the text, and end the same on
all of them; an operand, a form behind an operand and a round that asks for another one take a
token. So it is for the tokens that a lexer is going to hand out, with what was pushed back, and for
texts that are cut off or make no sense.
-/

namespace OnePassSql

open Step

/-! ## The tokens of a text -/

namespace TokenStream

theorem length_cut_le (n : Nat) (cs : List Char) : (cut n cs).length ≤ cs.length := by
  induction n, cs using cut_induction with
  | nil n => rw [cut_nil]; exact Nat.le_refl _
  | blank n c cs hblank ih =>
      rw [cut_of_blank hblank]
      exact Nat.le_succ_of_le ih
  | token n first rest hblank ih =>
      rw [cut_of_not_blank hblank, cutToken]
      cases hscan : scan? first rest with
      | none => exact Nat.zero_le _
      | some found =>
          obtain ⟨kind, more, tail⟩ := found
          have htail := ih kind more tail hscan
          have hlength := congrArg List.length (scan?_append hscan)
          rw [List.length_append] at hlength
          simp only [length, List.length_cons]
          omega

/-- A text has at most as many tokens as characters. -/
theorem length_ofText_le (sql : String) : (ofText sql).length ≤ sql.length := by
  rw [← String.length_toList]
  exact length_cut_le 0 sql.toList

end TokenStream

/-! ## Expressions -/

namespace Parse

/-- In the text expressions end, operand by operand and round by round. -/
structure ExpressionsEnd (text : Parser → Prop) (limit : Nat) : Prop where
  expression : EndsIn text limit expressionWithin
  operand : EndsIn text limit operandWithin
  operand_takes {budget : Nat} {e : Expr} {p q : Parser} :
    operandWithin budget p = .ok e q → q.tokens < p.tokens
  suffix (left : Expr) : EndsIn text limit fun _ => suffix? left
  suffix_takes {left e : Expr} {p q : Parser} :
    suffix? left p = .ok (some e) q → q.tokens < p.tokens
  arguments : LoopTakesIn text Parser.tokens limit (itemRound Parse.expression)
    fun budget items => (items ++ ·) <$> argumentsWithin budget
  climb (least : Nat) :
    LoopEndsIn text Parser.tokens limit (climbRound least) (climbWithin · · least)
  tighten (op : BinaryOp) :
    LoopEndsIn text Parser.tokens limit (tightenRound op) (tightenWithin · op)
  membershipList : EndsIn text limit fun _ => Parse.membershipList
  membershipList_eq : Parse.membershipList = (do
    expect "("
    let texts ← listFrom (1, [])
    return " ".intercalate texts : Parse String)
  list : LoopTakesIn text Parser.tokens limit listRound fun _ => listFrom

theorem expressionsEnd {text : Parser → Prop} {n : Nat} (h : ∀ p, text p → p.tokens ≤ n) :
    ExpressionsEnd text (4 * n + 4) where
  expression p hp := by
    have hle : p.ahead.length ≤ n := h p hp
    exact ⟨_, lasts_iff.mp lasts_expression p, fun _ _ => expressionWithin_eq (by omega)⟩
  operand p hp := by
    have hle : p.ahead.length ≤ n := h p hp
    exact ⟨_, lasts_iff.mp lasts_operand p, fun _ _ => operandWithin_eq (by omega)⟩
  operand_takes h := spends_operandWithin _ _ _ _ h
  suffix left := (lasts_suffix? left).endsIn _ _
  suffix_takes h := length_lt_of_suffix? h
  arguments := goesRound_arguments.loopTakesIn (spends_itemRound spends_expression) h (by omega)
  climb least := (goesRound_climb least).loopEndsIn h (by omega)
  tighten op := (goesRound_tighten op).loopEndsIn h (by omega)
  membershipList := (lasts_of_readsIn fun _ => readsIn_membershipList).endsIn _ _
  membershipList_eq := membershipList_eq_listFrom
  list := goesRound_list.loopTakesIn spends_listRound h (by omega)

/-! ## Clauses -/

/-- In the text the list of the forms with commas between them ends, and every form of it takes a
token. -/
abbrev ListEndsIn {α : Type} (text : Parser → Prop) (limit : Nat) (form : Parse α) : Prop :=
  LoopTakesIn text Parser.tokens limit (itemRound form)
    fun budget items => (items ++ ·) <$> separated form budget

theorem listEndsIn {α : Type} {text : Parser → Prop} {n limit : Nat} {form : Parse α}
    {P : TokenStream → α → Prop} (h : ∀ p, text p → p.tokens ≤ n) (hlimit : n + 1 ≤ limit)
    (hspends : Spends Parser.tokens (fun _ => 1) form) (hreads : ∀ s, ReadsIn s (P s) form) :
    ListEndsIn text limit form :=
  (goesRound_separated hspends hreads).loopTakesIn (spends_itemRound hspends) h
    ((Nat.one_mul n).symm ▸ hlimit)

end Parse

namespace Statement

open Parse

/-- In the text the loops of the clauses end, whatever values are bound. -/
structure ClausesEnd (text : Parser → Prop) (limit : Nat) (b : Bindings) : Prop where
  indexedColumns : ListEndsIn text limit indexedColumn
  watchedColumns : ListEndsIn text limit expectToken
  insertedColumns : ListEndsIn text limit expectName
  assignments : ListEndsIn text limit (assignment b)
  resultColumns : ListEndsIn text limit (boundExpression b)
  groupingTerms : ListEndsIn text limit expression
  orderingTerms : ListEndsIn text limit Select.orderingTerm
  insertedCells (t : Table) (table : String) :
    LoopTakesIn text Parser.tokens limit (cellRound b t table) fun _ row =>
      (fun read => (row.1 ++ read.1, read.2)) <$> insertedCells b t table row.2
  modifiers : LoopEndsIn text Parser.tokens limit (modifierRound b)
    fun budget said => modifiers b budget said.1 said.2
  constraints : LoopEndsIn text Parser.tokens limit constraintRound
    fun budget _ => moreConstraints budget
  definitions : LoopTakesIn text Parser.tokens limit (definitionRound b)
    fun budget columns => (columns ++ ·) <$> definitions b budget
  triggerBody : LoopTakesIn text Parser.tokens limit bodyRound fun budget _ => triggerBody budget
  view : LoopEndsIn text Parser.tokens limit viewRound fun _ _ => skipStatement
  joinWords : LoopEndsIn text Parser.tokens limit (wordRound Select.joinWords)
    fun _ _ => skipAllWords Select.joinWords

theorem clausesEnd {text : Parser → Prop} {n : Nat} (h : ∀ p, text p → p.tokens ≤ n)
    (b : Bindings) : ClausesEnd text (4 * n + 4) b where
  indexedColumns := listEndsIn h (by omega) spends_indexedColumn fun _ => readsIn_indexedColumn
  watchedColumns := listEndsIn h (by omega) spends_expectToken fun _ => readsIn_expectToken
  insertedColumns := listEndsIn h (by omega) spends_expectName fun _ => readsIn_expectName
  assignments := listEndsIn h (by omega) (spends_assignment b) fun _ => readsIn_assignment
  resultColumns :=
    listEndsIn h (by omega) (spends_boundExpression b) fun _ => readsIn_boundExpression
  groupingTerms := listEndsIn h (by omega) spends_expression fun _ => readsIn_expression
  orderingTerms :=
    listEndsIn h (by omega) Select.spends_orderingTerm fun _ => Select.readsIn_orderingTerm
  insertedCells t table :=
    (goesRound_insertedCells b t table).loopTakesIn spends_cellRound h (by omega)
  modifiers := (goesRound_modifiers b).loopEndsIn h (by omega)
  constraints := goesRound_moreConstraints.loopEndsIn h (by omega)
  definitions := (goesRound_definitions b).loopTakesIn spends_definitionRound h (by omega)
  triggerBody := goesRound_triggerBody.loopTakesIn spends_bodyRound h (by omega)
  view := goesRound_view.loopEndsIn h (by omega)
  joinWords := (goesRound_words _).loopEndsIn h (by omega)

end Statement

/-! ## SELECT -/

namespace Select

open Parse Statement

variable {ρ : Type}

/-- A loop of a SELECT whose budget does not show ends. -/
theorem endsIn_of_budgetFree {text : Session ρ → Prop} {n extra limit : Nat}
    {loop : Nat → Statement ρ Table} (h : ∀ s, text s → s.tokens ≤ n)
    (hfree : ∀ budget, BudgetFree loop extra budget)
    (hlasts : ∀ budget s, 2 * s.tokens + extra ≤ budget → LastsAt (loop budget) s)
    (hlimit : 2 * n + extra ≤ limit) : EndsIn text limit loop := by
  intro s hs
  have hle := h s hs
  have henough : 2 * s.tokens + extra ≤ limit := by omega
  exact ⟨loop limit s, fun t ht => (hlasts limit s henough).error ht rfl,
    fun budget hbudget => hfree budget s limit (by omega) henough⟩

variable [Record ρ]

/-- In the text SELECTs end, in whatever database and behind whatever cores, and go from core to
core with fewer tokens left each time. -/
structure SelectsEnd (text : Session ρ → Prop) (limit : Nat) : Prop where
  select (left : Option (Table × Compound)) : EndsIn text limit (selectWithin · left)
  core : EndsIn text limit coreWithin
  joined : EndsIn text limit joinedWithin
  source : EndsIn text limit sourceWithin
  segment (left : Option (Table × Compound)) : EndsIn text limit fun _ => Select.segment left
  segment_takes {left : Option (Table × Compound)} {turn : Turn _ Table} {s t : Session ρ} :
    Select.segment left s = .ok turn t → t.tokens < s.tokens
  select_eq (left : Option (Table × Compound)) (budget : Nat) (s : Session ρ) : text s →
    limit ≤ budget + 1 → selectWithin (budget + 1) left s
      = (Select.segment left >>= goOn (selectWithin budget) >>= closing) s
  joined_eq (budget : Nat) (source : Table) :
    (joinedBehind (budget + 1) source : Statement ρ Table) = (do
      match ← joinStart? with
      | none => return source
      | some word =>
        skipAllWords joinWords
        let _ ← sourceWithin (budget + 1)
        joinCondition
        throw (.unsupported (.join word)))
  select_takes {budget : Nat} {left : Option (Table × Compound)} {result : Table}
    {s t : Session ρ} : selectWithin budget left s = .ok result t → t.tokens < s.tokens
  core_takes {budget : Nat} {result : Table} {s t : Session ρ} :
    coreWithin budget s = .ok result t → t.tokens < s.tokens
  joined_takes {budget : Nat} {result : Table} {s t : Session ρ} :
    joinedWithin budget s = .ok result t → t.tokens < s.tokens
  source_takes {budget : Nat} {result : Table} {s t : Session ρ} :
    sourceWithin budget s = .ok result t → t.tokens < s.tokens

theorem selectsEnd {text : Session ρ → Prop} {n : Nat} (h : ∀ s, text s → s.tokens ≤ n) :
    SelectsEnd text (4 * n + 4) where
  select left := endsIn_of_budgetFree h (fun budget => (budgetFree_withinBudget budget).1 left)
    (fun _ _ => lastsAt_selectWithin left) (by omega)
  core := endsIn_of_budgetFree h (fun budget => (budgetFree_withinBudget budget).2.1)
    (fun _ _ => lastsAt_withinBudget.1) (by omega)
  joined := endsIn_of_budgetFree h (fun budget => (budgetFree_withinBudget budget).2.2.1)
    (fun _ _ => lastsAt_withinBudget.2.1) (by omega)
  source := endsIn_of_budgetFree h (fun budget => (budgetFree_withinBudget budget).2.2.2)
    (fun _ _ => lastsAt_withinBudget.2.2) (by omega)
  segment left := (lasts_segment left).endsIn _ _
  segment_takes h := spends_segment _ _ _ _ h
  select_eq left budget s hs hbudget := by
    have hle := h s hs
    exact selectWithin_eq_segment (by omega) left
  joined_eq := joinedBehind_eq_skipAllWords
  select_takes h := spends_selectWithin _ _ _ _ _ h
  core_takes h := spends_coreWithin _ _ _ _ h
  joined_takes h := spends_joinedWithin _ _ _ _ h
  source_takes h := spends_sourceWithin _ _ _ _ h

end Select

/-! ## Lexers -/

namespace Scan

/-- In the text so it is for the tokens that a lexer is going to hand out, with the steps that push
a token back or go back to a checkpoint. -/
structure LexersEnd (text : Scanner → Prop) (limit : Nat) : Prop where
  expression : EndsAsIn text limit expressionWithin
  operand : EndsAsIn text limit operandWithin
  operand_takes {budget : Nat} {e : Expr} {s t : Scanner} : s.Settled →
    operandWithin budget s = .ok e t → t.tokens < s.tokens
  suffix (left : Expr) : EndsAsIn text limit fun _ => suffix? left
  suffix_takes {left e : Expr} {s t : Scanner} : s.Settled →
    suffix? left s = .ok (some e) t → t.tokens < s.tokens
  arguments : LoopTakesAsIn text limit (itemRound Scan.expression)
    fun budget items => (items ++ ·) <$> argumentsWithin budget
  climb (least : Nat) : LoopEndsAsIn text limit (climbRound least) (climbWithin · · least)
  tighten (op : BinaryOp) : LoopEndsAsIn text limit (tightenRound op) (tightenWithin · op)
  membershipList : EndsAsIn text limit fun _ => Scan.membershipList
  list : LoopTakesAsIn text limit listRound
    fun budget list => (list.2 ++ ·) <$> textsWithin budget list.1
  indexedColumns :
    LoopTakesAsIn text limit (itemRound indexedColumn) (rounds (itemRound indexedColumn))
  watchedColumns : LoopTakesAsIn text limit (itemRound expectToken) (rounds (itemRound expectToken))
  insertedColumns : LoopTakesAsIn text limit (itemRound expectName) (rounds (itemRound expectName))
  groupingTerms :
    LoopTakesAsIn text limit (itemRound Scan.expression) (rounds (itemRound Scan.expression))
  orderingTerms :
    LoopTakesAsIn text limit (itemRound orderingTerm) (rounds (itemRound orderingTerm))
  triggerBody : LoopTakesAsIn text limit bodyRound (rounds bodyRound)
  view : LoopEndsAsIn text limit viewRound (rounds viewRound)
  joinWords :
    LoopEndsAsIn text limit (wordRound Select.joinWords) (rounds (wordRound Select.joinWords))

theorem lexersEnd {text : Scanner → Prop} {text' : Parser → Prop} {n : Nat}
    (htext : ∀ s, text s → s.Settled ∧ text' s.parser) (h : ∀ p, text' p → p.tokens ≤ n) :
    LexersEnd text (4 * n + 4) := by
  have hexpressions := Parse.expressionsEnd h
  have hitems {α : Type} {form : Scan α} {form' : Parse α} {P : TokenStream → α → Prop}
      (hform : Performs form form') (hspends : Spends Parser.tokens (fun _ => 1) form')
      (hreads : ∀ s, Parse.ReadsIn s (P s) form') :
      LoopTakesAsIn text (4 * n + 4) (itemRound form) (rounds (itemRound form)) :=
    loopTakesAsIn_of_performs (performs_itemRound hform)
      (performs_rounds (performs_itemRound hform))
      ((Parse.goesRound_separated hspends hreads).rounds.loopTakesIn
        (Parse.spends_itemRound hspends) h (by omega)) htext
  exact {
    expression := endsAsIn_of_performs (fun b => (performsWithin b).expression)
      hexpressions.expression htext
    operand := endsAsIn_of_performs (fun b => (performsWithin b).operand) hexpressions.operand htext
    operand_takes := fun hs hx =>
      hexpressions.operand_takes ((performsWithin _).operand.eq_ok hs hx).1
    suffix := fun left => endsAsIn_of_performs (fun _ => performs_suffix? left)
      (hexpressions.suffix left) htext
    suffix_takes := fun hs hx => hexpressions.suffix_takes ((performs_suffix? _).eq_ok hs hx).1
    arguments := loopTakesAsIn_of_performs (performs_itemRound performs_expression)
      performs_argumentsBehind hexpressions.arguments htext
    climb := fun least => loopEndsAsIn_of_performs (performs_climbRound least)
      (fun b left => (performsWithin b).climb left least) (hexpressions.climb least) htext
    tighten := fun op => loopEndsAsIn_of_performs (performs_tightenRound op)
      (fun b right => (performsWithin b).tighten op right) (hexpressions.tighten op) htext
    membershipList := endsAsIn_of_performs (fun _ => performs_membershipList)
      hexpressions.membershipList htext
    list := loopTakesAsIn_of_performs performs_listRound performs_textsBehind
      (Parse.goesRound_list.rounds.loopTakesIn Parse.spends_listRound h (by omega)) htext
    indexedColumns :=
      hitems performs_indexedColumn Parse.spends_indexedColumn fun _ => Parse.readsIn_indexedColumn
    insertedColumns :=
      hitems performs_expectName Parse.spends_expectName fun _ => Parse.readsIn_expectName
    watchedColumns :=
      hitems performs_expectToken Parse.spends_expectToken fun _ => Parse.readsIn_expectToken
    groupingTerms :=
      hitems performs_expression Parse.spends_expression fun _ => Parse.readsIn_expression
    orderingTerms :=
      hitems performs_orderingTerm Select.spends_orderingTerm fun _ => Select.readsIn_orderingTerm
    triggerBody := loopTakesAsIn_of_performs performs_bodyRound (performs_rounds performs_bodyRound)
      (Parse.goesRound_triggerBody.rounds.loopTakesIn Parse.spends_bodyRound h (by omega)) htext
    view := loopEndsAsIn_of_performs performs_viewRound (performs_rounds performs_viewRound)
      (Parse.goesRound_view.rounds.loopEndsIn h (by omega)) htext
    joinWords := loopEndsAsIn_of_performs (performs_wordRound _)
      (performs_rounds (performs_wordRound _))
      ((Parse.goesRound_words _).rounds.loopEndsIn h (by omega)) htext }

end Scan

/-! ## Texts -/

/-- Reading the text ends, wherever in it reading has come to and whatever the state is. -/
structure ReadingEnds (ρ : Type) [Record ρ] (sql : String) : Prop where
  expressions : Parse.ExpressionsEnd (Parser.Within (.ofText sql)) (4 * sql.length + 4)
  clauses (b : Bindings) : Statement.ClausesEnd (Parser.Within (.ofText sql)) (4 * sql.length + 4) b
  selects : Select.SelectsEnd (fun s : Session ρ => s.parser.Within (.ofText sql))
    (4 * sql.length + 4)
  lexers : Scan.LexersEnd (fun s => s.Settled ∧ s.parser.Within (.ofText sql)) (4 * sql.length + 4)
  queries (db : Database) (records : Records ρ) (params : List Value) :
    (db.query records sql params).answer ≠ .error .exhausted

namespace Database

/-- Reading ends in every text: on budgets taken from its length no loop runs out, and each has the
run that it has on every larger one; every operand, every form behind an operand and every round
that asks for another one takes a token. -/
theorem reading_ends (ρ : Type) [Record ρ] (sql : String) : ReadingEnds ρ sql := by
  have htokens : ∀ p : Parser, p.Within (.ofText sql) → p.tokens ≤ sql.length := fun p hp =>
    Nat.le_trans (TokenStream.LeadsTo.length_le hp) (TokenStream.length_ofText_le sql)
  exact {
    expressions := Parse.expressionsEnd htokens
    clauses := Statement.clausesEnd htokens
    selects := Select.selectsEnd fun s hs => htokens s.parser hs
    lexers := Scan.lexersEnd (fun _ hs => hs) htokens
    queries := fun db records params h => nomatch queryFault_of_answer h }

/-- A text that breaks off in the body of a trigger, behind a statement but before END: what is left
of it is refused where it ends. -/
theorem reading_ends_brokenTrigger :
    ∃ p : Parser, p.Within (.ofText "CREATE TRIGGER t DELETE ON c BEGIN a; b") ∧ p.tokens = 3 ∧
      (∀ budget, 160 ≤ budget → Parse.triggerBody budget p
        = .error (.parse (.expected ["Identifier"]) 39) { p with ahead := .done 39 }) ∧
      (standard.query (⟨[]⟩ : Records CellRecord) "CREATE TRIGGER t DELETE ON c BEGIN a; b"
        []).answer = .error (.misread (.expected ["Identifier"]) 39
          "CREATE TRIGGER t DELETE ON c BEGIN a; b") := by
  let body : TokenStream :=
    .token ⟨.word, "a", 35⟩ (.token ⟨.symbol, ";", 36⟩ (.token ⟨.word, "b", 38⟩ (.done 39)))
  have hbody : TokenStream.ofText "CREATE TRIGGER t DELETE ON c BEGIN a; b"
      = .token ⟨.word, "CREATE", 0⟩ (.token ⟨.word, "TRIGGER", 7⟩ (.token ⟨.word, "t", 15⟩
        (.token ⟨.word, "DELETE", 17⟩ (.token ⟨.word, "ON", 24⟩ (.token ⟨.word, "c", 27⟩
          (.token ⟨.word, "BEGIN", 29⟩ body)))))) := by decide +kernel
  have hwithin : (⟨body, 0, true⟩ : Parser).Within
      (.ofText "CREATE TRIGGER t DELETE ON c BEGIN a; b") := by
    rw [hbody]
    exact .token _ (.token _ (.token _ (.token _ (.token _ (.token _ (.token _ (.refl body)))))))
  have hends := reading_ends CellRecord "CREATE TRIGGER t DELETE ON c BEGIN a; b"
  obtain ⟨r, -, hrounds, hruns⟩ := (hends.clauses .empty).triggerBody.ends () _ hwithin
  have hr : rounds Parse.bodyRound 4 () ⟨body, 0, true⟩
      = .error (.parse (.expected ["Identifier"]) 39) ⟨.done 39, 0, true⟩ := by rfl
  exact ⟨⟨body, 0, true⟩, hwithin, rfl, fun budget hbudget =>
    (hruns budget hbudget).trans (hrounds.symm.trans hr), by decide +kernel⟩

end Database

end OnePassSql
