import OnePassSql.Proofs.Alike.Clauses

/-!
What CREATE and INSERT read acts alike where both texts go on with the same, or one has a semicolon
where the other ends. The loops take a token in each round, so the budgets that two texts of
different length give them do not show.
-/

namespace OnePassSql

open Step TokenStream

variable {α β : Type} {u v : TokenStream}

namespace Parse

/-- The type of a column for which no known one is named. -/
def otherType : Parse ColumnType := do
  if ← atEnd then return .none
  else if ← isNext [",", ")"] then return .none
  else if ← isModifierNext then return .none
  else
    let _ ← expectToken
    return .numeric

/-! ## Runs to the end of a text -/

/-! The type of a column can be any word, and so a semicolon, but none where the text ends. What has
been read of a table differs then; the parenthesis that is missing does not. -/

/-- The results go with each other, or both runs have come to the ends of their texts. -/
def FollowsToEnd (u v : TokenStream) (r r' : EStateM.Result Fault Parser α) : Prop :=
  Follows (Parser.comparison u v) Eq r r' ∨ ∃ a p b q, r = .ok a p ∧ r' = .ok b q ∧
    (∃ n, p.ahead = .done n) ∧ ∃ n, q.ahead = .done n

/-- The step does the same on parsers that go abreast, or brings both to the end. -/
structure RunsToEnd (u v : TokenStream) (x : Parse α) : Prop where
  moves : MovesOn x
  follows {p q : Parser} : p.Abreast u v q → FollowsToEnd u v (x p) (x q)

/-- The step succeeds at the end of a text. -/
def SucceedsAtEnd (x : Parse α) : Prop :=
  ∀ (p : Parser) (n : Nat), p.ahead = .done n → ∃ a q, x p = .ok a q ∧ ∃ m, q.ahead = .done m

/-- The step fails at the end of a text, with the same fault at every end. -/
def FailsAtEnd (x : Parse α) (e : Fault) : Prop :=
  ∀ (p : Parser) (n : Nat), p.ahead = .done n → ∃ e' q, x p = .error e' q ∧ e'.withoutPlace = e

theorem runsToEnd_of_alike {x : Parse α} (h : ActsAlike u v x) : RunsToEnd u v x :=
  ⟨h.movesOn, fun hs => .inl (h.follows hs)⟩

/-- Behind results that go with each other. -/
theorem followsToEnd_bind {x : Parse α} {f : α → Parse β} {p q : Parser} (hs : p.Abreast u v q)
    (hmoves : MovesOn x) (hx : Follows (Parser.comparison u v) Eq (x p) (x q))
    (hf : ∀ a, RunsToEnd u v (f a)) : FollowsToEnd u v ((x >>= f) p) ((x >>= f) q) := by
  cases hxp : x p with
  | error e p₁ =>
      rw [bind_eq_error.mpr (.inl hxp)]
      refine .inl fun hshow => ?_
      obtain ⟨e', q₁, hxq, hsame, -⟩ := hx.error hxp hshow
      exact ⟨e', q₁, bind_eq_error.mpr (.inl hxq), hsame, trivial⟩
  | ok a p₁ =>
      have hthen : (Parser.comparison u v).InView p₁ →
          FollowsToEnd u v (f a p₁) ((x >>= f) q) := by
        intro hview
        obtain ⟨_, q₁, hxq, rfl, hs₁⟩ := hx.ok hxp hview
        rw [bind_apply_ok hxq]
        exact (hf a).follows hs₁
      rw [bind_apply_ok hxp]
      cases hfa : f a p₁ with
      | ok c p₂ =>
          by_cases hview : (Parser.comparison u v).InView p₂
          · exact hfa ▸ hthen (hview.of_movesTo ((hf a).moves.ok hfa))
          · exact .inl fun hview' => absurd hview' hview
      | error e p₂ =>
          refine .inl fun hshow => ?_
          have hview := Comparison.inView_of_ends ((Parser.comparison u v).last_ends hshow) hs
            (hmoves.ok hxp)
          rcases hfa ▸ hthen hview with hfollows | ⟨_, _, _, _, hok, -⟩
          · exact hfollows hshow
          · cases hok

theorem runsToEnd_bind_of_alike {x : Parse α} {f : α → Parse β} (hx : ActsAlike u v x)
    (hf : ∀ a, RunsToEnd u v (f a)) : RunsToEnd u v (x >>= f) :=
  ⟨hx.movesOn.bind fun a => (hf a).moves, fun hs =>
    followsToEnd_bind hs hx.movesOn (hx.follows hs) hf⟩

/-- A step that comes to the end, and one behind it that succeeds there. -/
theorem RunsToEnd.bind {x : Parse α} {f : α → Parse β} (hx : RunsToEnd u v x)
    (hf : ∀ a, RunsToEnd u v (f a)) (hend : ∀ a, SucceedsAtEnd (f a)) :
    RunsToEnd u v (x >>= f) := by
  refine ⟨hx.moves.bind fun a => (hf a).moves, fun {p q} hs => ?_⟩
  rcases hx.follows hs with hfollows | ⟨a, p₁, b, q₁, hxp, hxq, ⟨n, hp₁⟩, m, hq₁⟩
  · exact followsToEnd_bind hs hx.moves hfollows hf
  · obtain ⟨c, p₂, hfa, hp₂⟩ := hend a p₁ n hp₁
    obtain ⟨d, q₂, hfb, hq₂⟩ := hend b q₁ m hq₁
    exact .inr ⟨c, p₂, d, q₂, (bind_apply_ok hxp f).trans hfa, (bind_apply_ok hxq f).trans hfb, hp₂,
      hq₂⟩

/-- A step that comes to the end, and one behind it that fails there. -/
theorem RunsToEnd.bind_of_fails {x : Parse α} {f : α → Parse β} (hx : RunsToEnd u v x)
    (hf : ∀ a, ActsAlike u v (f a)) {e : Fault} (hend : ∀ a, FailsAtEnd (f a) e) :
    ActsAlike u v (x >>= f) := by
  refine ⟨hx.moves.bind fun a => (hf a).moves, fun {p q} hs => ?_⟩
  rcases hx.follows hs with hfollows | ⟨a, p₁, b, q₁, hxp, hxq, ⟨n, hp₁⟩, m, hq₁⟩
  · exact follows_bind_at hs (hx.moves p) hfollows (fun a t _ => (hf a).moves t)
      fun a _ _ _ _ _ heq halike => heq ▸ (hf a).follows halike
  · obtain ⟨e₁, p₂, hfa, hsame⟩ := hend a p₁ n hp₁
    obtain ⟨e₂, q₂, hfb, hsame'⟩ := hend b q₁ m hq₁
    rw [(bind_apply_ok hxp f).trans hfa, (bind_apply_ok hxq f).trans hfb]
    exact fun _ => ⟨_, _, rfl, hsame.trans hsame'.symm, trivial⟩

theorem succeedsAtEnd_pure (a : α) : SucceedsAtEnd (pure a) :=
  fun p n h => ⟨a, p, rfl, n, h⟩

theorem SucceedsAtEnd.bind {x : Parse α} {f : α → Parse β} (hx : SucceedsAtEnd x)
    (hf : ∀ a, SucceedsAtEnd (f a)) : SucceedsAtEnd (x >>= f) := by
  intro p n h
  obtain ⟨a, q, hxp, m, hq⟩ := hx p n h
  obtain ⟨b, r, hfa, hr⟩ := hf a q m hq
  exact ⟨b, r, (bind_apply_ok hxp f).trans hfa, hr⟩

theorem succeedsAtEnd_isNext (words : List String) : SucceedsAtEnd (isNext words) :=
  fun p n h => ⟨false, p, isNext_of_done h words, n, h⟩

section

variable (h : WholeTails u v)

include h

/-! ## CREATE TABLE -/

theorem actsAlike_typeSizes : ActsAlike u v typeSizes := by
  have hclose : ActsAlike u v (expect ")") := actsAlike_expect h.tails (by decide)
  refine (actsAlike_accept h.tails (passes_of_wholeTails h (by decide))).bind fun opened => ?_
  cases opened with
  | false => exact runsAlike_pure rfl
  | true =>
      refine (actsAlike_expectNumber h.tails).bind fun _ =>
        (actsAlike_accept h.tails (passes_of_wholeTails h (by decide))).bind fun more => ?_
      cases more with
      | false => exact hclose
      | true => exact (actsAlike_expectNumber h.tails).bind fun _ => hclose

theorem actsAlike_knownType? : ActsAlike u v knownType? := by
  refine (actsAlike_acceptHolding? h rfl).bind fun found => ?_
  split
  · exact (actsAlike_typeSizes h).bind fun _ => runsAlike_pure rfl
  · exact runsAlike_pure rfl

omit h in
theorem movesOn_otherType : MovesOn otherType := by
  refine (movesOn_peek.bind fun _ => respects_pure _).bind fun ended => ?_
  split
  · exact respects_pure _
  refine (movesOn_isNext _).bind fun delimited => ?_
  split
  · exact respects_pure _
  refine (movesOn_isNext _).bind fun modified => ?_
  split
  · exact respects_pure _
  · exact movesOn_expectToken.bind fun _ => respects_pure _

omit h in
theorem otherType_of_done {p : Parser} {n : Nat} (hp : p.ahead = .done n) :
    otherType p = .ok .none p :=
  (bind_apply_ok (atEnd_of_done hp) _).trans rfl

omit h in
theorem otherType_of_semicolon {p : Parser} {t : Token} {rest : TokenStream}
    (hp : p.ahead = .token t rest) (ht : t.is ";" = true) :
    otherType p = .ok .numeric { p with ahead := rest } := by
  have hsame : t.is = Text.sameWord ";" := funext (Text.sameWord_congr_left ht)
  rw [otherType, bind_apply_ok (atEnd_of_token hp), if_neg (by decide),
    bind_apply_ok (isNext_of_token hp _), hsame, if_neg (by decide), isModifierNext,
    bind_apply_ok (isNext_of_token hp _), hsame, if_neg (by decide),
    bind_apply_ok (expectToken_of_token hp)]
  rfl

theorem runsToEnd_otherType : RunsToEnd u v otherType := by
  refine ⟨movesOn_otherType, fun {p q} hs => ?_⟩
  -- if a token is next, it is looked at alike
  have hword : ∀ {t t' : Token} {s s' : TokenStream}, p.ahead = .token t s →
      q.ahead = .token t' s' → FollowsToEnd u v (otherType p) (otherType q) := by
    intro t t' s s' hp hq
    have hword : ActsAlike u v (do
        if ← isNext [",", ")"] then return .none
        else if ← isModifierNext then return .none
        else
          let _ ← expectToken
          return .numeric : Parse ColumnType) := by
      refine (actsAlike_isNext h (by decide)).bind fun delimited => ?_
      split
      · exact runsAlike_pure rfl
      refine (actsAlike_isNext h (by decide)).bind fun modified => ?_
      split
      · exact runsAlike_pure rfl
      · exact runsAlike_expectToken_bind h.tails fun _ _ _ => runsAlike_pure rfl
    rw [otherType, bind_apply_ok (atEnd_of_token hp), bind_apply_ok (atEnd_of_token hq)]
    exact .inl (hword.follows hs)
  have hheads := hs.ahead.heads h.tails
  generalize hp : p.ahead = s at hheads
  generalize hq : q.ahead = s' at hheads
  cases hheads with
  | token => exact hword hp hq
  | closed => exact hword hp hq
  | ended =>
      rw [otherType_of_done hp, otherType_of_done hq]
      exact .inl (follows_pure hs rfl)
  | broken =>
      have hfirst : LooksFirst otherType := (looksFirst_peek.bind _).bind _
      exact .inl (follows_of_broken hfirst hfirst hp hq)
  | clause hu hv hmem hreads =>
      exact absurd ⟨⟨_, hu⟩, _, _, hv, _, hmem, hreads⟩ h.not_beforeClause
  | terminated hu hv hsemi =>
      exact .inr ⟨_, _, _, _, otherType_of_done hp, otherType_of_semicolon hq hsemi.2, ⟨_, hp⟩, _,
        rfl⟩

omit h in
theorem succeedsAtEnd_otherType : SucceedsAtEnd otherType :=
  fun p n hp => ⟨_, p, otherType_of_done hp, n, hp⟩

omit h in
theorem succeedsAtEnd_knownType? : SucceedsAtEnd knownType? := by
  intro p n hp
  exact ⟨none, p, bind_apply_ok (acceptHolding?_of_done hp _) _, n, hp⟩

omit h in
theorem succeedsAtEnd_typeOr (known : Option ColumnType) : SucceedsAtEnd (match known with
    | some type => return type
    | none => otherType : Parse ColumnType) := by
  cases known with
  | some type => exact succeedsAtEnd_pure type
  | none => exact succeedsAtEnd_otherType

theorem runsToEnd_typeOr (known : Option ColumnType) : RunsToEnd u v (match known with
    | some type => return type
    | none => otherType : Parse ColumnType) := by
  cases known with
  | some type => exact runsToEnd_of_alike (runsAlike_pure rfl)
  | none => exact runsToEnd_otherType h

omit h in
/-- What is read of a type behind the look for a modifier. -/
theorem succeedsAtEnd_typeBehind (modified : Bool) : SucceedsAtEnd (do
    let known ← if modified then pure none else knownType?
    match known with
    | some type => return type
    | none => otherType : Parse ColumnType) := by
  cases modified with
  | true => exact succeedsAtEnd_typeOr none
  | false => exact succeedsAtEnd_knownType?.bind succeedsAtEnd_typeOr

omit h in
theorem succeedsAtEnd_columnType : SucceedsAtEnd columnType :=
  (succeedsAtEnd_isNext _).bind succeedsAtEnd_typeBehind

theorem runsToEnd_columnType : RunsToEnd u v columnType := by
  refine (runsToEnd_of_alike (actsAlike_isNext h (by decide))).bind (fun modified => ?_)
    succeedsAtEnd_typeBehind
  cases modified with
  | true => exact runsToEnd_typeOr h none
  | false =>
      exact (runsToEnd_of_alike (actsAlike_knownType? h)).bind (runsToEnd_typeOr h)
        succeedsAtEnd_typeOr

theorem actsAlike_defaultValue (b : Bindings) : ActsAlike u v (defaultValue b) :=
  (actsAlike_accept h.tails (passes_of_wholeTails h (by decide))).bind fun _ =>
    (actsAlike_withSuffixes (actsAlike_expression h.tails) false).bind fun _ => runsAlike_settle _

theorem actsAlike_modifier (b : Bindings) (flags : ColumnFlags) (default : Value) (m : Modifier) :
    ActsAlike u v (modifier b flags default m) := by
  have hname : ActsAlike u v (do let _ ← expectToken; return (flags, default)) :=
    runsAlike_expectToken_bind h.tails fun _ _ _ => runsAlike_pure rfl
  cases m with
  | notNull =>
      exact (actsAlike_expect h.tails (by decide)).bind fun _ =>
        (actsAlike_conflictClause h).bind fun _ => runsAlike_pure rfl
  | primaryKey =>
      exact (actsAlike_expect h.tails (by decide)).bind fun _ =>
        (actsAlike_direction h.tails).bind fun _ => (actsAlike_conflictClause h).bind fun _ =>
          (actsAlike_accept h.tails (passes_of_wholeTails h (by decide))).bind fun _ =>
            runsAlike_pure rfl
  | unique => exact (actsAlike_conflictClause h).bind fun _ => runsAlike_pure rfl
  | default => exact (actsAlike_defaultValue h b).bind fun _ => runsAlike_pure rfl
  | references =>
      refine runsAlike_expectToken_bind h.tails fun _ _ _ =>
        (actsAlike_isNext h (by decide)).bind fun opened => ?_
      cases opened with
      | true => exact (actsAlike_indexedColumns h.tails).bind fun _ => runsAlike_pure rfl
      | false => exact runsAlike_pure rfl
  | collate => exact (actsAlike_collation h.tails).bind fun _ => runsAlike_pure rfl
  | constraint => exact hname
  | null => exact runsAlike_pure rfl

theorem actsAlike_modifiers (b : Bindings) (budget : Nat) (flags : ColumnFlags)
    (default : Value) : ActsAlike u v (modifiers b budget flags default) := by
  induction budget generalizing flags default with
  | zero => exact runsAlike_throw rfl
  | succ budget ih =>
      refine (actsAlike_acceptOne? h.tails (passes_of_wholeTails h (by decide))).bind
        fun found => ?_
      cases found with
      | none => exact runsAlike_pure rfl
      | some m =>
          exact (actsAlike_modifier h b flags default m).bind fun result =>
            ih result.1 result.2

omit h in
theorem budgetFree_modifiers (b : Bindings)
    (hmoves : ∀ flags default m, MovesOn (modifier b flags default m)) (budget : Nat)
    (flags : ColumnFlags) (default : Value) :
    BudgetFree (modifiers b · flags default) 1 1 budget := by
  induction budget generalizing flags default with
  | zero => exact fun p _ hbudget => by omega
  | succ budget ih =>
      intro p other hbudget hother
      obtain ⟨other, rfl⟩ : ∃ n, other = n + 1 := ⟨other - 1, by omega⟩
      dsimp only
      unfold modifiers
      refine bind_congr rfl fun found p₁ h₁ => ?_
      cases found with
      | none => rfl
      | some m =>
          have hlt := length_lt_of_acceptOne? h₁
          refine bind_congr rfl fun result p₂ h₂ => ?_
          have hle := (hmoves flags default m).length_le h₂
          exact ih result.1 result.2 p₂ other (by omega) (by omega)

/-- A word is accepted alike, or a semicolon is that ends the second text only. -/
theorem follows_accept_or {p q : Parser} (hs : p.Abreast u v q) (word : String) :
    Follows (Parser.comparison u v) Eq (accept word p) (accept word q) ∨ ∃ n m t,
      u = .done n ∧ v = .token t (.done m) ∧ p.ahead = .done n ∧
        accept word q = .ok true { q with ahead := .done m } := by
  by_cases hpass : (∃ n, p.ahead = .done n) → ∀ t s, q.ahead = .token t s →
      meaning? [(word, ())] t = none
  · exact .inl (follows_bind_at hs (movesOn_acceptOne? _ p) (follows_acceptOne? h.tails hs hpass)
      (fun _ t _ => respects_pure _ t) fun _ _ _ _ _ _ heq halike => heq ▸ follows_pure halike rfl)
  · simp only [not_forall] at hpass
    obtain ⟨⟨n, hp⟩, t, s, hq, hmeaning⟩ := hpass
    have hlast := hs.ahead
    rw [hp, hq] at hlast
    obtain ⟨rfl, rfl⟩ := hlast.eq_of_done
    cases h.tails with
    | clause _ _ hmem hreads =>
        exact absurd ⟨⟨n, rfl⟩, _, _, rfl, _, hmem, hreads⟩ h.not_beforeClause
    | terminated _ m hsemi =>
        obtain ⟨_, hsome⟩ := Option.ne_none_iff_exists'.mp hmeaning
        have haccept : acceptOne? [(word, ())] q = .ok (some ⟨⟩) { q with ahead := .done m } := by
          rw [acceptOne?_of_token hq, hsome]
        exact .inr ⟨n, m, t, rfl, rfl, hp, bind_apply_ok haccept _⟩

theorem runsToEnd_accept (word : String) : RunsToEnd u v (accept word) := by
  refine ⟨movesOn_accept word, fun {p q} hs => ?_⟩
  rcases follows_accept_or h hs word with hfollows | ⟨n, m, t, -, -, hp, hq⟩
  · exact .inl hfollows
  · exact .inr ⟨_, _, _, _, accept_of_done hp word, hq, ⟨n, hp⟩, m, rfl⟩

omit h in
theorem succeedsAtEnd_accept (word : String) : SucceedsAtEnd (accept word) :=
  fun p n hp => ⟨false, p, accept_of_done hp word, n, hp⟩

omit h in
/-- At the end of a text a column has no modifiers, and no default that must fit its type. -/
theorem succeedsAtEnd_modifiedColumn (b : Bindings) (name : String) (type : ColumnType) :
    SucceedsAtEnd (do
      let (flags, default) ← modifiers b ((← get).ahead.length + 1) .empty .null
      settle (Column.declare name type flags default) : Parse Column) := by
  intro p n hp
  have hmodifiers : modifiers b (p.ahead.length + 1) .empty .null p = .ok (.empty, .null) p := by
    rw [modifiers, bind_apply_ok (acceptOne?_of_done hp _)]
    rfl
  refine ⟨⟨name, type, .empty, .null, 0⟩, p, ?_, n, hp⟩
  rw [bind_apply_ok (get_apply p), bind_apply_ok hmodifiers]
  cases type <;> rfl

theorem runsToEnd_columnDefinition (b : Bindings) : RunsToEnd u v (columnDefinition b) := by
  have hmodifiers : ActsAlike u v (onBudget (fun p => p.ahead.length + 1)
      (modifiers b · .empty .null)) :=
    runsAlike_onTokens
      (fun budget => budgetFree_modifiers b
        (fun flags default m => (actsAlike_modifier h b flags default m).moves) budget _ _)
      fun budget => actsAlike_modifiers h b budget _ _
  have hcolumn (name : String) (type : ColumnType) : RunsToEnd u v (do
      let (flags, default) ← modifiers b ((← get).ahead.length + 1) .empty .null
      settle (Column.declare name type flags default) : Parse Column) :=
    runsToEnd_of_alike (hmodifiers.bind fun result => runsAlike_settle _)
  have htyped (name : String) : SucceedsAtEnd (do
      let type ← columnType
      let (flags, default) ← modifiers b ((← get).ahead.length + 1) .empty .null
      settle (Column.declare name type flags default) : Parse Column) :=
    succeedsAtEnd_columnType.bind (succeedsAtEnd_modifiedColumn b name)
  exact (runsToEnd_of_alike (actsAlike_expectName h.tails)).bind
    (fun name => (runsToEnd_accept h name).bind
      (fun _ => (runsToEnd_columnType h).bind (hcolumn name) (succeedsAtEnd_modifiedColumn b name))
      fun _ => htyped name)
    fun name => (succeedsAtEnd_accept name).bind fun _ => htyped name

omit h in
/-- A constraint behind its kind. -/
def constraintFrom : Option Bool → Parse Bool
  | none => return false
  | some isPrimary => do
    if isPrimary then expect "KEY"
    let _ ← indexedColumns
    conflictClause
    return true

theorem actsAlike_constraintFrom (kind : Option Bool) : ActsAlike u v (constraintFrom kind) := by
  have hcolumns : ActsAlike u v (do let _ ← indexedColumns; conflictClause; return true) :=
    (actsAlike_indexedColumns h.tails).bind fun _ =>
      (actsAlike_conflictClause h).bind fun _ => runsAlike_pure rfl
  cases kind with
  | none => exact runsAlike_pure rfl
  | some isPrimary =>
      cases isPrimary with
      | true => exact (actsAlike_expect h.tails (by decide)).bind fun _ => hcolumns
      | false => exact hcolumns

theorem actsAlike_tableConstraint : ActsAlike u v tableConstraint := by
  refine (actsAlike_isNext h (by decide)).bind fun named => ?_
  cases named with
  | true =>
      refine (actsAlike_expect h.tails (by decide)).bind fun _ =>
        runsAlike_expectToken_bind h.tails fun _ _ _ => ?_
      exact ((actsAlike_expectOne h.tails (by decide)).map some).bind (actsAlike_constraintFrom h)
  | false =>
      exact (actsAlike_acceptOne? h.tails (passes_of_wholeTails h (by decide))).bind
        (actsAlike_constraintFrom h)

/-- A constraint that is found takes a token. -/
theorem length_lt_of_tableConstraint {p q : Parser} (hfound : tableConstraint p = .ok true q) :
    q.ahead.length < p.ahead.length := by
  have hrest : ∀ kind, MovesOn (constraintFrom kind) := fun kind =>
    (actsAlike_constraintFrom h kind).movesOn
  obtain ⟨named, p₁, hnamed, hfound⟩ := bind_eq_ok.mp hfound
  have hle := (actsAlike_isNext h (by decide)).movesOn.length_le hnamed
  cases named with
  | true =>
      obtain ⟨_, p₂, hword, hfound⟩ := bind_eq_ok.mp hfound
      obtain ⟨first, rest, -, hahead, rfl⟩ := expectOne_eq_ok hword
      have hmoves : MovesOn (do
          let _ ← expectToken
          (some <$> expectOne [("PRIMARY", true), ("UNIQUE", false)]) >>= constraintFrom) :=
        movesOn_expectToken.bind fun _ =>
          ((actsAlike_expectOne h.tails (by decide)).map some).moves.bind hrest
      have hle' := hmoves.length_le hfound
      simp only [hahead, TokenStream.length] at hle hle'
      omega
  | false =>
      obtain ⟨kind, p₂, hkind, hfound⟩ := bind_eq_ok.mp hfound
      have hle' := (hrest kind).length_le hfound
      cases kind with
      | none => cases hfound
      | some isPrimary =>
          have hlt := length_lt_of_acceptOne? hkind
          omega

theorem actsAlike_moreConstraints (budget : Nat) : ActsAlike u v (moreConstraints budget) := by
  induction budget with
  | zero => exact runsAlike_throw rfl
  | succ budget ih =>
      refine (actsAlike_accept h.tails (passes_of_wholeTails h (by decide))).bind fun more => ?_
      cases more with
      | false => exact runsAlike_pure rfl
      | true =>
          refine (actsAlike_tableConstraint h).bind fun found => ?_
          cases found with
          | true => exact ih
          | false =>
              exact runsAlike_position.bind_of_total (fun start => ⟨start, trivial⟩)
                fun _ _ _ => runsAlike_throw rfl

theorem runsToEnd_definitions (b : Bindings) (budget : Nat) :
    RunsToEnd u v (definitions b budget) := by
  induction budget with
  | zero => exact runsToEnd_of_alike (runsAlike_throw rfl)
  | succ budget ih =>
      refine runsToEnd_bind_of_alike (actsAlike_tableConstraint h) fun found => ?_
      cases found with
      | true =>
          exact runsToEnd_of_alike
            ((actsAlike_moreConstraints h budget).bind fun _ => runsAlike_pure rfl)
      | false =>
          refine (runsToEnd_columnDefinition h b).bind (fun column => ?_) fun column p n hp =>
            ⟨_, _, bind_apply_ok (accept_of_done hp ",") _, n, hp⟩
          refine runsToEnd_bind_of_alike
            (actsAlike_accept h.tails (passes_of_wholeTails h (by decide))) fun more => ?_
          cases more with
          | true =>
              exact ih.bind (fun _ => runsToEnd_of_alike (runsAlike_pure rfl))
                fun _ => succeedsAtEnd_pure _
          | false => exact runsToEnd_of_alike (runsAlike_pure rfl)

omit h in
/-- The definitions up to the parenthesis that closes them. -/
def closedDefinitions (b : Bindings) (budget : Nat) : Parse (List Column) := do
  let columns ← definitions b budget
  expect ")"
  return columns

theorem actsAlike_closedDefinitions (b : Bindings) (budget : Nat) :
    ActsAlike u v (closedDefinitions b budget) := by
  refine (runsToEnd_definitions h b budget).bind_of_fails
    (fun _ => (actsAlike_expect h.tails (by decide)).bind fun _ => runsAlike_pure rfl)
    (e := .parse (.expected [")"]) 0) fun columns p n hp => ?_
  have hexpect : expect ")" p = .error (.parse (.expected [")"]) p.position) p := by
    rw [expect, expectOne_eq_takeNext, takeNext_of_done hp]
    rfl
  exact ⟨_, _, bind_eq_error.mpr (.inl hexpect), rfl⟩

omit h in
theorem budgetFree_moreConstraints (hmoves : MovesOn tableConstraint) (budget : Nat) :
    BudgetFree moreConstraints 1 1 budget := by
  induction budget with
  | zero => exact fun p _ hbudget => by omega
  | succ budget ih =>
      intro p other hbudget hother
      obtain ⟨other, rfl⟩ : ∃ n, other = n + 1 := ⟨other - 1, by omega⟩
      unfold moreConstraints
      refine bind_congr rfl fun more p₁ h₁ => ?_
      cases more with
      | false => rfl
      | true =>
          have hlt := length_lt_of_accept h₁
          refine bind_congr rfl fun found p₂ h₂ => ?_
          have hle := hmoves.length_le h₂
          cases found with
          | false => rfl
          | true => exact ih p₂ other (by omega) (by omega)

theorem budgetFree_definitions (b : Bindings) (budget : Nat) :
    BudgetFree (definitions b) 1 1 budget := by
  have hmore := budgetFree_moreConstraints (actsAlike_tableConstraint h).moves
  induction budget with
  | zero => exact fun p _ hbudget => by omega
  | succ budget ih =>
      intro p other hbudget hother
      obtain ⟨other, rfl⟩ : ∃ n, other = n + 1 := ⟨other - 1, by omega⟩
      unfold definitions
      refine bind_congr rfl fun found p₁ h₁ => ?_
      cases found with
      | true =>
          have hlt := length_lt_of_tableConstraint h h₁
          exact bind_congr (hmore _ p₁ other (by omega) (by omega)) fun _ _ _ => rfl
      | false =>
          have hle₁ := (actsAlike_tableConstraint h).movesOn.length_le h₁
          refine bind_congr rfl fun column p₂ h₂ => bind_congr rfl fun more p₃ h₃ => ?_
          have hle₂ := (runsToEnd_columnDefinition h b).moves.length_le h₂
          cases more with
          | false => rfl
          | true =>
              have hlt := length_lt_of_accept h₃
              exact bind_congr (ih p₃ other (by omega) (by omega)) fun _ _ _ => rfl

/-! ## Triggers, views and indexes -/

/-- A body that the first text breaks off in is one that a token is due in. -/
theorem actsAlike_triggerBody (budget : Nat) : ActsAlike u v (triggerBody budget) := by
  induction budget with
  | zero => exact runsAlike_throw rfl
  | succ budget ih =>
      have hword : ActsAlike u v (do let _ ← expectToken; triggerBody budget) :=
        runsAlike_expectToken_bind h.tails fun _ _ _ => ih
      have hthen : ∀ closed : Bool, ActsAlike u v (if closed then do
          if ← accept "END" then return
          else triggerBody budget
        else do
          let _ ← expectToken
          triggerBody budget) := by
        intro closed
        cases closed with
        | false => exact hword
        | true =>
            refine (actsAlike_accept h.tails (passes_of_wholeTails h (by decide))).bind
              fun ended => ?_
            cases ended with
            | true => exact runsAlike_pure rfl
            | false => exact ih
      refine ⟨(movesOn_accept ";").bind fun closed => (hthen closed).movesOn, fun {p q} hs => ?_⟩
      rcases follows_accept_or h hs ";" with hfollows | ⟨n, m, t, hu, hv, hp, -⟩
      · exact follows_bind_at hs (movesOn_accept ";" p) hfollows
          (fun closed t _ => (hthen closed).moves t)
          fun closed _ _ _ _ _ heq halike => heq ▸ (hthen closed).follows halike
      · have hbroken : triggerBody (budget + 1) p
            = .error (.parse (.expected ["Identifier"]) p.position) p := by
          rw [triggerBody, bind_apply_ok (accept_of_done hp ";"), if_neg (by decide)]
          exact bind_eq_error.mpr (.inl (expectToken_of_done hp))
        exact hbroken ▸ fun hshow => absurd hshow (not_shows_due hu hv)

omit h in
theorem budgetFree_triggerBody (budget : Nat) : BudgetFree triggerBody 1 1 budget := by
  induction budget with
  | zero => exact fun p _ hbudget => by omega
  | succ budget ih =>
      intro p other hbudget hother
      obtain ⟨other, rfl⟩ : ∃ n, other = n + 1 := ⟨other - 1, by omega⟩
      unfold triggerBody
      refine bind_congr rfl fun closed p₁ h₁ => ?_
      cases closed with
      | false =>
          have hle := (movesOn_accept _).length_le h₁
          refine bind_congr rfl fun t p₂ h₂ => ?_
          have hlt := length_lt_of_expectToken h₂
          exact ih p₂ other (by omega) (by omega)
      | true =>
          have hlt := length_lt_of_accept h₁
          refine bind_congr rfl fun ended p₂ h₂ => ?_
          have hle := (movesOn_accept _).length_le h₂
          cases ended with
          | true => rfl
          | false => exact ih p₂ other (by omega) (by omega)

theorem actsAlike_triggerEvent : ActsAlike u v triggerEvent := by
  refine (actsAlike_expectOne h.tails (by decide)).bind fun isUpdate => ?_
  cases isUpdate with
  | false => exact runsAlike_pure rfl
  | true =>
      refine (actsAlike_accept h.tails (passes_of_wholeTails h (by decide))).bind fun found => ?_
      cases found with
      | false => exact runsAlike_pure rfl
      | true =>
          exact (runsAlike_commaSeparated h.tails (fun t => ⟨t, .refl t⟩)
            (runsAlike_expectToken h.tails)).bind_of_total
              (fun ts => ⟨ts, List.forall₂_same.mpr fun t _ => .refl t⟩)
              fun _ _ _ => runsAlike_pure rfl

theorem actsAlike_trigger : ActsAlike u v trigger := by
  have hbody : ActsAlike u v (do expect "BEGIN"; triggerBody ((← get).ahead.length + 1)) :=
    (actsAlike_expect h.tails (by decide)).bind fun _ =>
      runsAlike_onTokens budgetFree_triggerBody (actsAlike_triggerBody h)
  have hguard : ActsAlike u v (do
      if ← accept "WHEN" then
        let _ ← expression
      expect "BEGIN"
      triggerBody ((← get).ahead.length + 1)) := by
    refine (actsAlike_accept h.tails (passes_of_wholeTails h (by decide))).bind fun found => ?_
    cases found with
    | true => exact (actsAlike_expression h.tails).bind fun _ => hbody
    | false => exact hbody
  have hevent : ActsAlike u v (do
      triggerEvent
      expect "ON"
      let _ ← expectName
      if ← accept "FOR" then
        expect "EACH"
        expect "ROW"
      if ← accept "WHEN" then
        let _ ← expression
      expect "BEGIN"
      triggerBody ((← get).ahead.length + 1)) := by
    refine (actsAlike_triggerEvent h).bind fun _ =>
      (actsAlike_expect h.tails (by decide)).bind fun _ =>
        (actsAlike_expectName h.tails).bind fun _ =>
          (actsAlike_accept h.tails (passes_of_wholeTails h (by decide))).bind fun found => ?_
    cases found with
    | true =>
        exact (actsAlike_expect h.tails (by decide)).bind fun _ =>
          (actsAlike_expect h.tails (by decide)).bind fun _ => hguard
    | false => exact hguard
  refine (actsAlike_ifExists h true).bind fun _ => (actsAlike_expectName h.tails).bind fun _ =>
    (actsAlike_acceptOne? h.tails (passes_of_wholeTails h (by decide))).bind fun time => ?_
  split
  · exact (actsAlike_expect h.tails (by decide)).bind fun _ => hevent
  · exact hevent

theorem actsAlike_view : ActsAlike u v view :=
  (actsAlike_ifExists h true).bind fun _ => (actsAlike_expectName h.tails).bind fun _ =>
    (actsAlike_expect h.tails (by decide)).bind fun _ => actsAlike_skipStatement h

theorem actsAlike_index : ActsAlike u v index :=
  (actsAlike_ifExists h true).bind fun _ => (actsAlike_expectName h.tails).bind fun _ =>
    (actsAlike_expect h.tails (by decide)).bind fun _ =>
      (actsAlike_expectName h.tails).bind fun _ =>
        (actsAlike_indexedColumns h.tails).bind fun _ => runsAlike_pure rfl

theorem actsAlike_uniqueIndex : ActsAlike u v uniqueIndex :=
  (actsAlike_expect h.tails (by decide)).bind fun _ => actsAlike_index h

end

end Parse

end OnePassSql
