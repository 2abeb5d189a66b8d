import OnePassSql.Proofs.Faults.Statement
import OnePassSql.Proofs.Parser.Rounds

/-!
The loops of the clauses go round: lists of forms with commas between them, the modifiers of a
column, the columns and constraints of a table, the body of a trigger, the text of a view, the words
of a join and the values of a row. A round that asks for another one takes a token, so the loops end
where the text does, also if what they wait for never comes.
-/

namespace OnePassSql

open Step

namespace Parse

variable {b : Bindings}

/-! ## Forms that take a token -/

theorem spends_indexedColumn : Spends Parser.tokens (fun _ => 1) indexedColumn := by
  refine spends_expectName.bind fun name => spends_of_movesOn ?_
  refine (movesOn_accept "COLLATE").bind fun found => ?_
  cases found with
  | true => exact movesOn_collation.bind fun _ => movesOn_direction.bind fun _ => respects_pure _
  | false => exact movesOn_direction.bind fun _ => respects_pure _

theorem spends_boundExpression (b : Bindings) :
    Spends Parser.tokens (fun _ => 1) (boundExpression b) :=
  spends_expression.bind fun _ => spends_pure rfl

theorem spends_tableConstraint : Spends Parser.tokens Bool.toNat tableConstraint := by
  intro p found q h
  cases found with
  | true => exact length_lt_of_tableConstraint (.ended 0 0) h
  | false => exact (actsAlike_tableConstraint (.ended 0 0)).movesOn.length_le h

theorem spends_columnDefinition (b : Bindings) :
    Spends Parser.tokens (fun _ => 1) (columnDefinition b) := by
  refine spends_expectName.bind fun name => (spends_of_movesOn (movesOn_accept name)).bind fun _ =>
    (spends_of_ends fun _ => readsIn_columnType).bind fun type =>
      (spends_get fun _ => rfl).bind fun p => ?_
  have hmodifiers := (actsAlike_modifiers (.ended 0 0) b (p.ahead.length + 1) .empty .null).movesOn
  exact spends_of_movesOn (hmodifiers.bind fun _ => respects_settle _)

/-! ## Modifiers -/

/-- Reads a modifier and asks for another one, if a word for one is next. -/
def modifierRound (b : Bindings) :
    ColumnFlags × Value → Parse (Turn (ColumnFlags × Value) (ColumnFlags × Value))
  | (flags, default) => do
    match ← acceptOne? modifierWords with
    | none => return .last (flags, default)
    | some m =>
      let said ← modifier b flags default m
      return .again said

theorem spends_modifierRound (said : ColumnFlags × Value) :
    Spends Parser.tokens Turn.cost (modifierRound b said) := by
  refine (spends_acceptOne? _).bind fun found => ?_
  cases found with
  | none => exact spends_pure rfl
  | some m =>
      have hmoves := (actsAlike_modifier (.ended 0 0) b said.1 said.2 m).movesOn
      exact (spends_of_movesOn hmoves).bind fun _ => spends_pure rfl

theorem lasts_modifierRound (said : ColumnFlags × Value) : Lasts (modifierRound b said) := by
  intro p hp
  have hstart : Lasts (acceptOne? modifierWords) := lasts_of_readsIn fun _ => readsIn_acceptOne? _
  refine endsAt_bind (hstart p hp) fun found q hq _ _ => ?_
  cases found with
  | none => exact endsAt_pure trivial trivial
  | some m =>
      rcases acceptOne?_eq_ok hq with ⟨hnone, -⟩ | ⟨m', word, rest, hm, hmeaning, hahead, rfl⟩
      · cases hnone
      cases hm
      have hends := endsAt_modifier (s := .token word rest) (b := b) said.1 said.2
        (p := { p with ahead := rest }) (.refl _) hmeaning
      exact endsAt_bind (hends.lasts nofun) fun _ _ _ _ _ => endsAt_pure trivial trivial

theorem goesRound_modifiers (b : Bindings) :
    GoesRound Parser.tokens (modifierRound b)
      (fun budget said => modifiers b budget said.1 said.2) 1 1 := by
  refine goesRound_of_succ Nat.one_pos Nat.one_pos spends_modifierRound lasts_modifierRound
    fun budget said p _ => ?_
  rw [modifierRound, bind_assoc]
  refine bind_congr rfl fun found q _ => ?_
  cases found with
  | none => rfl
  | some m =>
      rw [bind_assoc]
      rfl

/-! ## The columns and constraints of a table -/

/-- Reads a constraint behind a comma, and asks for another one. -/
def constraintRound : Unit → Parse (Turn Unit Unit)
  | () => do
    if ← accept "," then
      if ← tableConstraint then return .again ()
      else refuse ["PRIMARY", "UNIQUE"] (← position)
    else return .last ()

theorem spends_constraintRound (u : Unit) :
    Spends Parser.tokens Turn.cost (constraintRound u) := by
  refine (spends_accept ",").bind fun more => ?_
  cases more with
  | false => exact spends_pure rfl
  | true =>
      refine (spends_of_ends fun _ => readsIn_tableConstraint).bind fun found => ?_
      cases found with
      | true => exact spends_pure rfl
      | false => exact (spends_of_movesOn movesOn_position).bind fun _ => spends_throw _

theorem lasts_constraintRound (u : Unit) : Lasts (constraintRound u) := by
  refine (lasts_accept ",").bind fun more => ?_
  cases more with
  | false => exact lasts_pure _
  | true =>
      refine Lasts.bind (lasts_of_readsIn fun _ => readsIn_tableConstraint) fun found => ?_
      cases found with
      | true => exact lasts_pure _
      | false =>
          exact Lasts.bind (fun _ _ => ⟨trivial, trivial⟩) fun _ => lasts_throw nofun

theorem goesRound_moreConstraints :
    GoesRound Parser.tokens constraintRound (fun budget _ => moreConstraints budget) 1 1 := by
  refine goesRound_of_succ Nat.one_pos Nat.one_pos spends_constraintRound lasts_constraintRound
    fun budget _ p _ => ?_
  rw [constraintRound, bind_assoc]
  refine bind_congr rfl fun more q _ => ?_
  cases more with
  | false => rfl
  | true =>
      rw [if_pos rfl, if_pos rfl, bind_assoc]
      refine bind_congr rfl fun found r _ => ?_
      cases found <;> rfl

/-- Reads a column and asks for another one behind a comma, or reads the constraints. -/
def definitionRound (b : Bindings) (columns : List Column) :
    Parse (Turn (List Column) (List Column)) := do
  if ← tableConstraint then
    moreConstraints ((← get).ahead.length + 1)
    return .last columns
  else
    let c ← columnDefinition b
    if ← accept "," then return .again (columns ++ [c]) else return .last (columns ++ [c])

theorem spends_moreConstraints (budget : Nat) :
    Spends Parser.tokens (fun _ => 0) (moreConstraints budget) :=
  spends_of_movesOn (actsAlike_moreConstraints (.ended 0 0) budget).movesOn

theorem spends_definitionRound (columns : List Column) :
    Spends Parser.tokens (fun _ => 1) (definitionRound b columns) := by
  refine spends_tableConstraint.bind fun found => ?_
  cases found with
  | true =>
      refine (spends_get fun _ => rfl).bind fun p => ?_
      exact (spends_moreConstraints _).bind fun _ => spends_pure rfl
  | false =>
      refine (spends_columnDefinition b).bind fun c => ?_
      refine (spends_of_movesOn (movesOn_accept ",")).bind fun more => ?_
      cases more <;> exact spends_pure rfl

theorem lasts_definitionRound (columns : List Column) : Lasts (definitionRound b columns) := by
  refine Lasts.bind (lasts_of_readsIn fun _ => readsIn_tableConstraint) fun found => ?_
  cases found with
  | true =>
      have hmore : Lasts (get >>= fun p : Parser => moreConstraints (p.ahead.length + 1)) :=
        lasts_iff.mpr fun p =>
          goesRound_moreConstraints.ne_exhausted (b := ()) (Nat.le_of_eq (by rw [Nat.one_mul]))
      exact hmore.bind fun _ => lasts_pure _
  | false =>
      have hcolumn : Lasts (columnDefinition b) :=
        lasts_of_ends (fun _ => nofun) fun _ => defines_columnDefinition
      refine hcolumn.bind fun c => ?_
      refine (lasts_accept ",").bind fun more => ?_
      cases more <;> exact lasts_pure _

theorem goesRound_definitions (b : Bindings) :
    GoesRound Parser.tokens (definitionRound b)
      (fun budget columns => (columns ++ ·) <$> definitions b budget) 1 1 := by
  refine goesRound_of_succ Nat.one_pos Nat.one_pos
    (fun columns => (spends_definitionRound columns).mono Turn.cost_le_one) lasts_definitionRound
    fun budget columns p hbudget => ?_
  rw [map_eq_pure_bind, definitions, definitionRound, bind_assoc, bind_assoc]
  refine bind_congr rfl fun found q hfound => ?_
  cases found with
  | true =>
      have hlt : q.tokens < p.tokens := length_lt_of_tableConstraint (.ended 0 0) hfound
      rw [if_pos rfl, if_pos rfl, bind_assoc, bind_assoc, bind_apply_ok (get_apply q), bind_assoc]
      -- the constraints have a budget of their own here, and what is left of the loop's there
      refine bind_congr (goesRound_moreConstraints.congr (b := ()) (by omega) ?_) fun _ _ _ => ?_
      · exact Nat.le_of_eq (by rw [Nat.one_mul])
      · rw [pure_bind, List.append_nil]
        rfl
  | false =>
      rw [if_neg Bool.false_ne_true, if_neg Bool.false_ne_true, bind_assoc, bind_assoc]
      refine bind_congr rfl fun c r _ => ?_
      rw [bind_assoc, bind_assoc]
      exact bind_congr rfl fun more t _ =>
        congrFun (behindComma_eq_goOn (definitions b budget) columns c more) t

/-! ## Triggers, views and joins -/

/-- Takes a token of a trigger's body, and asks for another one unless it was a semicolon with END
behind it. -/
def bodyRound : Unit → Parse (Turn Unit Unit)
  | () => do
    if ← accept ";" then
      if ← accept "END" then return .last () else return .again ()
    else
      let _ ← expectToken
      return .again ()

theorem spends_bodyRound (u : Unit) : Spends Parser.tokens (fun _ => 1) (bodyRound u) := by
  refine (spends_accept ";").bind fun closed => ?_
  cases closed with
  | true =>
      refine (spends_of_movesOn (movesOn_accept "END")).bind fun ended => ?_
      cases ended <;> exact spends_pure rfl
  | false => exact spends_expectToken.bind fun _ => spends_pure rfl

theorem lasts_bodyRound (u : Unit) : Lasts (bodyRound u) := by
  refine (lasts_accept ";").bind fun closed => ?_
  cases closed with
  | true =>
      refine (lasts_accept "END").bind fun ended => ?_
      cases ended <;> exact lasts_pure _
  | false =>
      exact Lasts.bind (lasts_of_readsIn fun _ => readsIn_expectToken) fun _ => lasts_pure _

theorem goesRound_triggerBody :
    GoesRound Parser.tokens bodyRound (fun budget _ => triggerBody budget) 1 1 := by
  refine goesRound_of_succ Nat.one_pos Nat.one_pos
    (fun u => (spends_bodyRound u).mono Turn.cost_le_one) lasts_bodyRound fun budget _ p _ => ?_
  rw [bodyRound, bind_assoc]
  refine bind_congr rfl fun closed q _ => ?_
  cases closed with
  | true =>
      rw [if_pos rfl, if_pos rfl, bind_assoc]
      refine bind_congr rfl fun ended r _ => ?_
      cases ended <;> rfl
  | false =>
      rw [if_neg Bool.false_ne_true, if_neg Bool.false_ne_true, bind_assoc]
      rfl

/-- Takes a token of a view, and asks for another one up to a semicolon or the end. -/
def viewRound : Unit → Parse (Turn Unit Unit)
  | () => do
    if ← atEnd then return .last ()
    else if ← isNext [";"] then return .last ()
    else
      let _ ← expectToken
      return .again ()

theorem spends_viewRound (u : Unit) : Spends Parser.tokens Turn.cost (viewRound u) := by
  refine (spends_of_ends fun _ => readsIn_atEnd).bind fun ended => ?_
  cases ended with
  | true => exact spends_pure rfl
  | false =>
      refine (spends_of_ends fun _ => readsIn_isNext [";"]).bind fun closed => ?_
      cases closed with
      | true => exact spends_pure rfl
      | false => exact spends_expectToken.bind fun _ => spends_pure rfl

theorem lasts_viewRound (u : Unit) : Lasts (viewRound u) := by
  refine Lasts.bind (lasts_of_readsIn fun _ => readsIn_atEnd) fun ended => ?_
  cases ended with
  | true => exact lasts_pure _
  | false =>
      refine Lasts.bind (lasts_of_readsIn fun _ => readsIn_isNext [";"]) fun closed => ?_
      cases closed with
      | true => exact lasts_pure _
      | false =>
          exact Lasts.bind (lasts_of_readsIn fun _ => readsIn_expectToken) fun _ => lasts_pure _

theorem skipStatement_apply (p : Parser) :
    skipStatement p
      = (peek >>= fun _ => pure ()) { p with ahead := skipStatement.go p.ahead } := rfl

theorem goesRound_view :
    GoesRound Parser.tokens viewRound (fun _ _ => skipStatement) 1 1 := by
  refine goesRound_of_succ Nat.one_pos Nat.one_pos spends_viewRound lasts_viewRound
    fun _ _ p _ => ?_
  obtain ⟨ahead, cursor, suffixes⟩ := p
  cases ahead with
  | done n => rfl
  | fault ch n => rfl
  | token t rest =>
      have hatEnd : atEnd ⟨.token t rest, cursor, suffixes⟩
          = .ok false ⟨.token t rest, cursor, suffixes⟩ := rfl
      have hisNext : isNext [";"] ⟨.token t rest, cursor, suffixes⟩
          = .ok (t.is ";" || false) ⟨.token t rest, cursor, suffixes⟩ := rfl
      rw [viewRound, bind_assoc, bind_apply_ok hatEnd, if_neg Bool.false_ne_true, bind_assoc,
        bind_apply_ok hisNext, Bool.or_false, skipStatement_apply, skipStatement.go]
      cases t.is ";" <;> rfl

/-- Takes one of the words and asks for another one. -/
def wordRound (words : List String) : Unit → Parse (Turn Unit Unit)
  | () => do
    match ← acceptOne? (plainWords words) with
    | some _ => return .again ()
    | none => return .last ()

/-- Takes tokens as long as they are among the words, and looks for one that is not. -/
def skipAllWords (words : List String) : Parse Unit := do
  skipWords words
  let _ ← peek

theorem skipAllWords_apply (words : List String) (p : Parser) :
    skipAllWords words p
      = (peek >>= fun _ => pure ()) { p with ahead := skipWords.go words p.ahead } := rfl

theorem meaning?_eq_of_any (words : List String) (t : Token) :
    meaning? (plainWords words) t = if words.any t.is then some () else none := by
  induction words with
  | nil => rfl
  | cons word words ih =>
      simp only [meaning?, plainWords, List.map_cons, List.findSome?_cons, List.any_cons] at ih ⊢
      by_cases hword : t.is word = true
      · simp [hword]
      · simp [hword, ih]

theorem spends_wordRound (words : List String) (u : Unit) :
    Spends Parser.tokens Turn.cost (wordRound words u) := by
  refine (spends_acceptOne? _).bind fun found => ?_
  cases found <;> exact spends_pure rfl

theorem lasts_wordRound (words : List String) (u : Unit) : Lasts (wordRound words u) := by
  refine Lasts.bind (lasts_of_readsIn fun _ => readsIn_acceptOne? _) fun found => ?_
  cases found <;> exact lasts_pure _

theorem goesRound_words (words : List String) :
    GoesRound Parser.tokens (wordRound words) (fun _ _ => skipAllWords words) 1 1 := by
  refine goesRound_of_succ Nat.one_pos Nat.one_pos (spends_wordRound words) (lasts_wordRound words)
    fun _ _ p _ => ?_
  obtain ⟨ahead, cursor, suffixes⟩ := p
  cases ahead with
  | done n => rfl
  | fault ch n => rfl
  | token t rest =>
      have hfound := acceptOne?_of_token (p := ⟨.token t rest, cursor, suffixes⟩) rfl
        (plainWords words)
      rw [meaning?_eq_of_any] at hfound
      rw [wordRound, bind_assoc, skipAllWords_apply, skipWords.go]
      cases hany : words.any t.is with
      | true =>
          rw [hany] at hfound
          rw [bind_apply_ok hfound]
          rfl
      | false =>
          rw [hany] at hfound
          rw [bind_apply_ok hfound]
          rfl

end Parse

namespace Select

open Parse

theorem spends_orderingTerm : Spends Parser.tokens (fun _ => 1) orderingTerm :=
  spends_expression.bind fun _ => spends_of_movesOn movesOn_direction

end Select

namespace Statement

open Parse

theorem spends_assignment (b : Bindings) : Spends Parser.tokens (fun _ => 1) (assignment b) :=
  spends_expectName.bind fun _ => spends_of_movesOn ((movesOn_expect _).bind fun _ =>
    (movesOn_boundExpression b).bind fun _ => respects_pure _)

/-! ## The values of a row -/

/-- Reads a value for the next column, and asks for another one behind a comma. -/
def cellRound (b : Bindings) (t : Table) (table : String) :
    List (Nat × Value) × List String →
      Parse (Turn (List (Nat × Value) × List String) (List (Nat × Value) × List String))
  | (_, []) => throw (.semantic .tooManyValues)
  | (cells, column :: columns) => do
    let e ← boundExpression b
    let v ← settle (e.eval t.scope)
    let cell ← settle (insertedCell t table column v)
    if ← accept "," then return .again (cells ++ [cell], columns)
    else return .last (cells ++ [cell], columns)

section

variable {b : Bindings} {t : Table} {table : String}

theorem ends_cellRound (s : TokenStream) (row : List (Nat × Value) × List String) :
    Ends (Parser.Within s) (s.StatementFault b) (fun _ => True) (cellRound b t table row) := by
  obtain ⟨cells, columns⟩ := row
  cases columns with
  | nil => exact ends_throw (.semantic .semantic)
  | cons column columns =>
      refine (ends_of_readsIn readsIn_boundExpression).bind fun e he => ?_
      have hvalue : Result.Raises (s.StatementFault b) (e.eval t.scope) :=
        (e.raises_eval t.named_scope he.1).mono fun _ => .of_eval he.2 (.heading t)
      refine (ends_settle hvalue fun _ _ => trivial).bind fun v _ => ?_
      refine (ends_settle (raises_insertedCell t table column v) fun _ _ => trivial).bind
        fun cell _ => (ends_of_readsIn (readsIn_accept ",")).bind fun more _ => ?_
      cases more <;> exact ends_pure trivial

theorem spends_cellRound (row : List (Nat × Value) × List String) :
    Spends Parser.tokens (fun _ => 1) (cellRound b t table row) := by
  obtain ⟨cells, columns⟩ := row
  cases columns with
  | nil => exact spends_throw _
  | cons column columns =>
      refine (spends_boundExpression b).bind fun e => spends_of_movesOn ?_
      refine (respects_settle _).bind fun v => (respects_settle _).bind fun cell =>
        (movesOn_accept ",").bind fun more => ?_
      cases more <;> exact respects_pure _

theorem goesRound_insertedCells (b : Bindings) (t : Table) (table : String) :
    GoesRound Parser.tokens (cellRound b t table)
      (fun _ row => (fun read => (row.1 ++ read.1, read.2)) <$> insertedCells b t table row.2)
      1 1 := by
  refine goesRound_of_succ Nat.one_pos Nat.one_pos
    (fun row => (spends_cellRound row).mono Turn.cost_le_one)
    (fun row => lasts_of_ends (fun _ => nofun) fun s => ends_cellRound s row) fun _ row p _ => ?_
  obtain ⟨cells, columns⟩ := row
  cases columns with
  | nil => rfl
  | cons column columns =>
      rw [map_eq_pure_bind, insertedCells, cellRound, bind_assoc, bind_assoc]
      refine bind_congr rfl fun e q _ => ?_
      rw [bind_assoc, bind_assoc]
      refine bind_congr rfl fun v r _ => ?_
      rw [bind_assoc, bind_assoc]
      refine bind_congr rfl fun cell u _ => ?_
      rw [bind_assoc, bind_assoc]
      refine bind_congr rfl fun more w _ => ?_
      cases more with
      | false => rfl
      | true =>
          simp only [if_true, bind_assoc, pure_bind, goOn, map_eq_pure_bind, List.append_assoc,
            List.singleton_append]

end

end Statement

end OnePassSql
