import OnePassSql.Proofs.Alike.Definitions
import OnePassSql.Proofs.Parser.Declarations

/-!
The parser reads the definitions of columns as they stand in a text. A part that need not be there
is found missing by the word behind it, so each part is read up to where the next begins, whatever
that is and however many there are.
-/

namespace OnePassSql

namespace Parse

open Step TokenStream

variable {α β : Type}

/-! ## Reading what stands there -/

/-- The step reads the first stream up to the second, whatever else the parser's state is. -/
def Takes (step : Parse α) (s : TokenStream) (a : α) (s' : TokenStream) : Prop :=
  ∀ cursor suffixes, step ⟨s, cursor, suffixes⟩ = .ok a ⟨s', cursor, suffixes⟩

section Takes

variable {x : Parse α} {f : α → Parse β} {s s₁ s' : TokenStream} {a : α} {c : β} {t : Token}
  {word : String} {words : List String} {options : List (String × α)}

theorem takes_pure (a : α) (s : TokenStream) : Takes (pure a) s a s := fun _ _ => rfl

theorem Takes.bind (hx : Takes x s a s₁) (hf : Takes (f a) s₁ c s') : Takes (x >>= f) s c s' :=
  fun cursor suffixes => (bind_apply_ok (hx cursor suffixes) f).trans (hf cursor suffixes)

theorem takes_acceptOne? (h : t.is word = true) (ha : meaning? options ⟨.word, word, 0⟩ = some a) :
    Takes (acceptOne? options) (.token t s) (some a) s :=
  fun _ _ => acceptOne?_eq_some_of_is rfl h ha

theorem takes_acceptOne?_of_words (h : Words [word] s s')
    (ha : meaning? options ⟨.word, word, 0⟩ = some a) :
    Takes (acceptOne? options) s (some a) s' := by
  cases h with
  | cons his h =>
      cases h
      exact takes_acceptOne? his ha

theorem takes_accept (h : Words [word] s s') : Takes (accept word) s true s' :=
  (takes_acceptOne?_of_words h (meaning?_self word ())).bind (takes_pure _ _)

theorem takes_expectOne (h : Words [word] s s')
    (ha : meaning? options ⟨.word, word, 0⟩ = some a) : Takes (expectOne options) s a s' := by
  cases h with
  | cons his h =>
      cases h
      exact fun _ _ => expectOne_of_is rfl his ha

theorem takes_expect (h : Words [word] s s') : Takes (expect word) s ⟨⟩ s' :=
  takes_expectOne h (meaning?_self word ())

theorem takes_expectToken (t : Token) (s : TokenStream) : Takes expectToken (.token t s) t s :=
  fun _ _ => expectToken_of_token rfl

theorem takes_expectName (t : Token) (s : TokenStream) : Takes expectName (.token t s) t.name s :=
  fun _ _ => expectName_of_token rfl

theorem takes_isNext (t : Token) (s : TokenStream) (words : List String) :
    Takes (isNext words) (.token t s) (words.any t.is) (.token t s) :=
  fun _ _ => bind_apply_ok (peek_of_token rfl) _

/-- Of words that are all none of the options none is taken. -/
theorem takes_acceptOne?_of_at (h : s.At words)
    (hnone : ∀ word ∈ words, meaning? options ⟨.word, word, 0⟩ = none) :
    Takes (acceptOne? options) s none s := by
  obtain ⟨word, hmem, _, hword⟩ := h
  cases hword with
  | cons his _ => exact fun _ _ => acceptOne?_of_is rfl his (hnone word hmem)

theorem takes_accept_of_at (h : s.At words) {other : String}
    (hother : ∀ word ∈ words, Text.sameWord word other = false) : Takes (accept other) s false s :=
  (takes_acceptOne?_of_at h fun word hmem => by
    simp [meaning?, Token.is, hother word hmem]).bind (takes_pure _ _)

theorem takes_isNext_of_at (h : s.At words) {others : List String} {b : Bool}
    (hall : ∀ word ∈ words, others.any (Text.sameWord word) = b) :
    Takes (isNext others) s b s := by
  obtain ⟨word, hmem, _, hword⟩ := h
  cases hword with
  | @cons _ _ t _ _ his _ =>
      have hsame : others.any t.is = b := by
        rw [← hall word hmem]
        exact congrArg others.any (funext (is_eq_of_is his))
      exact hsame ▸ takes_isNext t _ others

theorem takes_atEnd_of_at (h : s.At words) : Takes atEnd s false s := by
  obtain ⟨word, -, _, hword⟩ := h
  cases hword with
  | cons _ _ => exact fun _ _ => bind_apply_ok (peek_of_token rfl) _

end Takes

/-! ## Parts of a definition -/

section Parts

variable {s s₁ s' : TokenStream} {words : List String} {word : String}

theorem meaning?_plainWords {words : List String} (h : word ∈ words) :
    meaning? (plainWords words) ⟨.word, word, 0⟩ = some () := by
  induction words with
  | nil => cases h
  | cons first rest ih =>
      by_cases hfirst : Text.sameWord word first = true
      · simp [meaning?, plainWords, Token.is, hfirst]
      · have hrest : word ∈ rest := by
          rcases List.mem_cons.mp h with rfl | hrest
          · exact absurd (by simp [Text.sameWord]) hfirst
          · exact hrest
        simpa [meaning?, plainWords, Token.is, hfirst] using ih hrest

theorem takes_conflictClause (h : Perhaps Conflict s s') (hbehind : s'.At words)
    (hwords : ∀ word ∈ words, Text.sameWord word "ON" = false) :
    Takes conflictClause s ⟨⟩ s' := by
  rcases h with rfl | ⟨action, hmem, hclause⟩
  · exact (takes_accept_of_at hbehind hwords).bind (takes_pure _ _)
  · cases hclause with
    | cons hon hclause =>
        cases hclause with
        | cons hconflict haction =>
            exact (takes_accept (.cons hon (.nil _))).bind
              ((takes_expect (.cons hconflict (.nil _))).bind
                (takes_expectOne haction (meaning?_plainWords hmem)))

theorem takes_direction (h : Perhaps Direction s s') (hbehind : s'.At words)
    (hwords : ∀ word ∈ words, meaning? (plainWords ["ASC", "DESC"]) ⟨.word, word, 0⟩ = none) :
    Takes direction s ⟨⟩ s' := by
  rcases h with rfl | ⟨word, hmem, hword⟩
  · exact (takes_acceptOne?_of_at hbehind hwords).bind (takes_pure _ _)
  · cases hword with
    | cons his h =>
        cases h
        exact (takes_acceptOne? his (meaning?_plainWords hmem)).bind (takes_pure _ _)

theorem takes_collation {name : String} (hmem : name ∈ collations) (h : Words [name] s s') :
    Takes collation s ⟨⟩ s' :=
  takes_expectOne h (meaning?_plainWords hmem)

theorem takes_indexedColumn (h : IndexedColumn s s') (hbehind : s'.At listEnds) :
    ∃ name, Takes indexedColumn s name s' := by
  obtain ⟨t, s₁, s₂, rfl, hcollation, hdirection⟩ := h
  refine ⟨t.name, (takes_expectName t s₁).bind ?_⟩
  have hthen : Takes (do direction; return t.name) s₂ t.name s' :=
    (takes_direction hdirection hbehind (by decide)).bind (takes_pure _ _)
  rcases hcollation with rfl | ⟨name, hmem, hwords⟩
  · exact (takes_accept_of_at (hdirection.at Direction.at hbehind) (by decide)).bind hthen
  · cases hwords with
    | cons his hname =>
        exact (takes_accept (.cons his (.nil _))).bind ((takes_collation hmem hname).bind hthen)

theorem takes_separated (h : Separated IndexedColumn s s') (hbehind : s'.At [")"]) {budget : Nat}
    (hbudget : s.length < budget) : ∃ names, Takes (separated indexedColumn budget) s names s' := by
  induction h generalizing budget with
  | last h =>
      obtain ⟨budget, rfl⟩ : ∃ n, budget = n + 1 := ⟨budget - 1, by omega⟩
      obtain ⟨name, hname⟩ := takes_indexedColumn h (hbehind.mono (by decide))
      exact ⟨[name], hname.bind
        ((takes_accept_of_at hbehind (by decide)).bind (takes_pure _ _))⟩
  | @more s s₁ s₂ s' h hcomma _ ih =>
      obtain ⟨budget, rfl⟩ : ∃ n, budget = n + 1 := ⟨budget - 1, by omega⟩
      have hlt := h.beyond.length_lt
      have hle := hcomma.leadsTo.length_le
      have hshorter : s₂.length < budget := by omega
      obtain ⟨name, hname⟩ := takes_indexedColumn h (hcomma.at_of_mem (by decide))
      obtain ⟨names, hnames⟩ := ih hbehind hshorter
      exact ⟨name :: names, hname.bind
        ((takes_accept hcomma).bind (hnames.bind (takes_pure _ _)))⟩

theorem takes_indexedColumns (h : IndexedColumns s s') :
    ∃ names, Takes indexedColumns s names s' := by
  obtain ⟨s₁, s₂, hopen, hcolumns, hclose⟩ := h
  obtain ⟨names, hnames⟩ :=
    takes_separated hcolumns (hclose.at) (Nat.lt_succ_self _)
  have hlist : Takes (commaSeparated indexedColumn) s₁ names s₂ := hnames
  exact ⟨names, (takes_expect hopen).bind
    (hlist.bind ((takes_expect hclose).bind (takes_pure _ _)))⟩

end Parts

/-! ## Defaults -/

section Defaults

variable {b : Bindings} {s s' : TokenStream} {v : Value} {e : Expr} {p q : Parser}

theorem peekOperator?_of_at (h : p.ahead.At definitionEnds) :
    peekOperator? p = .ok none p := by
  obtain ⟨word, hmem, s', hword⟩ := h
  have hall : ∀ word ∈ definitionEnds, pairedSigns ⟨.word, word, 0⟩ = [] ∧
      meaning? singleSigns ⟨.word, word, 0⟩ = none := by decide
  generalize hahead : p.ahead = s at hword
  cases hword with
  | cons his _ => exact peekOperator?_of_is hahead his (hall word hmem).1 (hall word hmem).2

/-- Where no form behind an operand is read, an operand before the end of a part is all that an
expression takes. -/
theorem expression_of_operand_alone (h : operand p = .ok e q) (hsuffixes : q.suffixes = false)
    (hbehind : q.ahead.At definitionEnds) : expression p = .ok e q := by
  have hstops : Stops q := by
    refine ⟨peekOperator?_of_at hbehind, fun htrue => ?_⟩
    rw [hsuffixes] at htrue
    cases htrue
  rw [expression_apply, bind_apply_ok h]
  exact climb_of_stops hstops e 0

theorem constantExpression_of_operand {cursor : Nat}
    (h : operand ⟨s, cursor, false⟩ = .ok e ⟨s', cursor, false⟩) (hbehind : s'.At definitionEnds)
    (suffixes : Bool) :
    constantExpression ⟨s, cursor, suffixes⟩ = .ok e ⟨s', cursor, suffixes⟩ := by
  rw [constantExpression, withSuffixes]
  dsimp only
  rw [expression_of_operand_alone h rfl hbehind]

theorem SpellsLeast.not_lt {minus t : Token} (h : SpellsLeast minus t) :
    ¬Binary64.digitsValue t.text.toList < Nat.pow 2 63 := by
  rw [h.2]
  exact Nat.lt_irrefl _

theorem operand_of_numeral {t : Token} {n : Nat} (hp : Lexed p) (hahead : p.ahead = .token t s)
    (h : Numeral t n) :
    ∃ e, operand p = .ok e { p with ahead := s } ∧
      e.bind b = .literal (.integer (Int64.ofNat n)) := by
  obtain ⟨hkind, rfl, hlt⟩ := h
  exact exists_operand_of_atom hp (.number hahead hkind hlt)

/-- A literal is read, and it stands for its value, whatever parameters are bound. -/
theorem exists_operand_of_literal (h : Literal s v s') (hbehind : s'.At definitionEnds)
    (hp : Lexed p) (hahead : p.ahead = s) (hsuffixes : p.suffixes = false) :
    ∃ e, operand p = .ok e { p with ahead := s' } ∧ (e.bind b).eval .none = .ok v := by
  cases h with
  | number h =>
      obtain ⟨e, he, hbind⟩ := operand_of_numeral hp hahead h
      exact ⟨e, he, by rw [hbind]; rfl⟩
  | @negated minus t n s h hnumeral =>
      have hrest : Lexed { p with ahead := .token t s' } :=
        hp.of_leadsTo (hahead ▸ .token minus (.refl _))
      obtain ⟨e, he, hbind⟩ := operand_of_numeral (b := b) hrest rfl hnumeral
      have hleast : ¬SpellsLeast minus t := fun h => h.not_lt (by
        obtain ⟨-, rfl, hlt⟩ := hnumeral
        exact hlt)
      have hminus := operand_of_minus hahead h fun t' behind ht => by
        cases ht
        exact hleast
      rw [bind_apply_ok (expression_of_operand_alone he hsuffixes hbehind)] at hminus
      refine ⟨_, hminus, ?_⟩
      rw [Expr.bind, hbind]
      rfl
  | @least minus t s h hleast =>
      refine ⟨.literal (.integer Int64.minValue), ?_, rfl⟩
      have hpeek := peekOperator?_of_at (p := { p with ahead := s' }) hbehind
      have hread : leastInteger? minus { p with ahead := .token t s' }
          = .ok (some (.literal (.integer Int64.minValue))) { p with ahead := s' } := by
        rw [leastInteger?_of_spells rfl hleast, hpeek]
      rw [operand_of_sign hahead h, bind_apply_ok hread]
      rfl
  | null h =>
      cases h with
      | cons his h =>
          cases h
          exact ⟨_, operand_of_null hahead his, rfl⟩
  | text hkind =>
      obtain ⟨e, he, hbind⟩ := exists_operand_of_atom (b := b) hp (.text hahead hkind)
      exact ⟨e, he, by rw [hbind]; rfl⟩

/-- No sign stands before a literal but a minus. -/
theorem takes_accept_plus (h : Literal s v s') (hs : Lexed ⟨s, 0, true⟩) :
    Takes (accept "+") s false s := by
  have hkind : ∀ {t : Token} {s : TokenStream}, Lexed ⟨.token t s, 0, true⟩ →
      t.kind.startsWith '+' = false → Takes (accept "+") (.token t s) false (.token t s) :=
    fun hs hclass _ _ => accept_of_not_is rfl (hs.not_is rfl rfl hclass)
  cases h with
  | number h => exact hkind hs (by rw [h.1]; decide)
  | negated his _ => exact fun _ _ => accept_of_is_other rfl his (by decide)
  | least his _ => exact fun _ _ => accept_of_is_other rfl his (by decide)
  | null h => exact takes_accept_of_at h.at (by decide)
  | text h => exact hkind hs (by rw [h]; decide)

theorem takes_defaultValue (b : Bindings) (h : Literal s v s') (hbehind : s'.At definitionEnds)
    (hs : Lexed ⟨s, 0, true⟩) : Takes (defaultValue b) s v s' := by
  refine (takes_accept_plus h hs).bind fun cursor suffixes => ?_
  obtain ⟨e, he, hvalue⟩ :=
    exists_operand_of_literal (b := b) (p := ⟨s, cursor, false⟩) h hbehind hs rfl rfl
  rw [bind_apply_ok (constantExpression_of_operand he hbehind suffixes), hvalue]
  rfl

end Defaults

/-! ## Modifiers -/

section Modifiers

variable {s s' : TokenStream}

/-- The constraints together with those that are said. -/
def addFlags (flags : ColumnFlags) (said : List Said) : ColumnFlags :=
  ⟨flags.notNull || said.any (·.flags.notNull), flags.primaryKey || said.any (·.flags.primaryKey),
    flags.autoIncrement || said.any (·.flags.autoIncrement)⟩

/-- The default that is said last, if one is said. -/
def lastDefaultOr (default : Value) (said : List Said) : Value :=
  (said.filterMap Said.default).getLastD default

theorem addFlags_cons (flags : ColumnFlags) (said : Said) (more : List Said) :
    addFlags flags (said :: more) = addFlags (addFlags flags [said]) more := by
  simp [addFlags, Bool.or_assoc]

theorem lastDefaultOr_cons (default : Value) (said : Said) (more : List Said) :
    lastDefaultOr default (said :: more) = lastDefaultOr (lastDefaultOr default [said]) more := by
  cases hsaid : said.default <;>
    simp only [lastDefaultOr, List.filterMap_cons, hsaid, List.filterMap_nil, List.getLastD_cons,
      List.getLastD_nil]

theorem addFlags_empty (flags : ColumnFlags) (default : Option Value) :
    addFlags flags [⟨.empty, default⟩] = flags := by
  simp [addFlags, ColumnFlags.empty]

/-- A modifier is recognised by its first word, and adds what it says. -/
theorem takes_modifier (b : Bindings) {said : Said} (h : SaysModifier s said s')
    (hbehind : s'.At definitionEnds) (hs : Lexed ⟨s, 0, true⟩) :
    ∃ m s₁, Takes (acceptOne? modifierWords) s (some m) s₁ ∧ ∀ flags default,
      Takes (modifier b flags default m) s₁ (addFlags flags [said], lastDefaultOr default [said])
        s' := by
  cases h with
  | notNull hwords hconflict =>
      obtain _ | ⟨hnot, hnull⟩ := hwords
      refine ⟨.notNull, _, takes_acceptOne? hnot (by decide), fun flags default => ?_⟩
      have hflags : addFlags flags [⟨⟨true, false, false⟩, none⟩]
          = { flags with notNull := true } := by
        simp [addFlags]
      rw [hflags]
      exact (takes_expect hnull).bind
        ((takes_conflictClause hconflict hbehind (by decide)).bind (takes_pure _ _))
  | null hword =>
      obtain _ | ⟨hnull, _ | _⟩ := hword
      refine ⟨.null, _, takes_acceptOne? hnull (by decide), fun flags default => ?_⟩
      rw [Said.nothing, addFlags_empty]
      exact takes_pure _ _
  | primaryKey hwords hdirection hconflict =>
      obtain _ | ⟨hprimary, hkey⟩ := hwords
      refine ⟨.primaryKey, _, takes_acceptOne? hprimary (by decide), fun flags default => ?_⟩
      have hflags : addFlags flags [⟨⟨false, true, false⟩, none⟩] = { flags with
          primaryKey := true, autoIncrement := flags.autoIncrement || false } := by
        simp [addFlags]
      rw [hflags]
      exact (takes_expect hkey).bind
        ((takes_direction hdirection (hconflict.at Conflict.at hbehind) (by decide)).bind
          ((takes_conflictClause hconflict hbehind (by decide)).bind
            ((takes_accept_of_at hbehind (by decide)).bind (takes_pure _ _))))
  | automaticKey hwords hdirection hconflict hautomatic =>
      obtain _ | ⟨hprimary, hkey⟩ := hwords
      refine ⟨.primaryKey, _, takes_acceptOne? hprimary (by decide), fun flags default => ?_⟩
      have hflags : addFlags flags [⟨⟨false, true, true⟩, none⟩] = { flags with
          primaryKey := true, autoIncrement := flags.autoIncrement || true } := by
        simp [addFlags]
      have hnext : TokenStream.At ["AUTOINCREMENT"] _ := hautomatic.at
      rw [hflags]
      exact (takes_expect hkey).bind
        ((takes_direction hdirection (hconflict.at Conflict.at hnext) (by decide)).bind
          ((takes_conflictClause hconflict hnext (by decide)).bind
            ((takes_accept hautomatic).bind (takes_pure _ _))))
  | unique hword hconflict =>
      obtain _ | ⟨hunique, _ | _⟩ := hword
      refine ⟨.unique, _, takes_acceptOne? hunique (by decide), fun flags default => ?_⟩
      rw [Said.nothing, addFlags_empty]
      exact (takes_conflictClause hconflict hbehind (by decide)).bind (takes_pure _ _)
  | default hword hliteral =>
      have hrest := hs.of_leadsTo (q := ⟨_, 0, true⟩) hword.leadsTo
      obtain _ | ⟨hdefault, _ | _⟩ := hword
      refine ⟨.default, _, takes_acceptOne? hdefault (by decide), fun flags default => ?_⟩
      rw [addFlags_empty]
      exact (takes_defaultValue b hliteral hbehind hrest).bind (takes_pure _ _)
  | references hword hcolumns =>
      obtain _ | ⟨hreferences, _ | _⟩ := hword
      refine ⟨.references, _, takes_acceptOne? hreferences (by decide), fun flags default => ?_⟩
      rw [Said.nothing, addFlags_empty]
      refine (takes_expectToken _ _).bind ?_
      rcases hcolumns with rfl | hcolumns
      · exact (takes_isNext_of_at (b := false) hbehind (by decide)).bind (takes_pure _ _)
      · obtain ⟨names, hnames⟩ := takes_indexedColumns hcolumns
        exact (takes_isNext_of_at (b := true) hcolumns.at (by decide)).bind
          (hnames.bind (takes_pure _ _))
  | collate h =>
      obtain ⟨name, hmem, hwords⟩ := h
      obtain _ | ⟨hcollate, hname⟩ := hwords
      refine ⟨.collate, _, takes_acceptOne? hcollate (by decide), fun flags default => ?_⟩
      rw [Said.nothing, addFlags_empty]
      exact (takes_collation hmem hname).bind (takes_pure _ _)
  | constraint h =>
      obtain ⟨name, _ | ⟨hconstraint, _ | _⟩⟩ := h
      refine ⟨.constraint, _, takes_acceptOne? hconstraint (by decide), fun flags default => ?_⟩
      rw [Said.nothing, addFlags_empty]
      exact (takes_expectToken _ _).bind (takes_pure _ _)

/-- Modifiers are read up to the end of the definition, in whatever order and however often they
stand there. -/
theorem takes_modifiers (b : Bindings) {said : List Said} (h : SaysModifiers s said s')
    (hbehind : s'.At listEnds) (hs : Lexed ⟨s, 0, true⟩) (flags : ColumnFlags) (default : Value)
    {budget : Nat} (hbudget : s.length < budget) :
    Takes (modifiers b budget flags default) s
      (addFlags flags said, lastDefaultOr default said) s' := by
  induction h generalizing flags default budget with
  | nil s =>
      obtain ⟨budget, rfl⟩ : ∃ n, budget = n + 1 := ⟨budget - 1, by omega⟩
      have hflags : addFlags flags [] = flags := by simp [addFlags]
      rw [hflags]
      exact (takes_acceptOne?_of_at hbehind (by decide)).bind (takes_pure _ _)
  | @cons s s₁ s' said more h hmore ih =>
      obtain ⟨budget, rfl⟩ : ∃ n, budget = n + 1 := ⟨budget - 1, by omega⟩
      have hlt := h.beyond.length_lt
      have hs₁ : Lexed ⟨s₁, 0, true⟩ := hs.of_leadsTo h.beyond.leadsTo
      obtain ⟨m, s₂, hword, hsaid⟩ := takes_modifier b h (hmore.at hbehind) hs
      rw [addFlags_cons, lastDefaultOr_cons]
      exact hword.bind ((hsaid flags default).bind (ih hbehind hs₁ _ _ (by omega)))

end Modifiers

/-! ## Types -/

section Types

variable {s s' : TokenStream} {t : Token} {word : String}

/-- The type that a word stands for behind the name of a column: it is told by the fragments that
the word holds, in any case. -/
def declaredType (word : String) : ColumnType :=
  if Text.holdsWord word "INT" then .integer
  else if ["CHAR", "CLOB", "TEXT"].any (Text.holdsWord word) then .text
  else if Text.holdsWord word "BLOB" then .none
  else if ["REAL", "FLOA", "DOUB"].any (Text.holdsWord word) then .real
  else .numeric

theorem holdsWord_congr {word' : String} (h : Text.sameWord word word' = true) :
    Text.holdsWord word = Text.holdsWord word' := by
  funext part
  rw [Text.holdsWord, Text.holdsWord, eq_of_beq h]

/-- The type of the first known fragment that the word holds. -/
def fragmentType? (word : String) : Option ColumnType :=
  typeFragments.findSome? fun f => if Text.holdsWord word f.1 then some f.2 else none

theorem fragmentType?_of_is (h : t.is word = true) :
    fragmentType? t.text = fragmentType? word := by
  rw [fragmentType?, fragmentType?, holdsWord_congr h]

theorem getD_findSome?_cons (word fragment : String) (type other : ColumnType)
    (rest : List (String × ColumnType)) :
    (((fragment, type) :: rest).findSome? fun f =>
        if Text.holdsWord word f.1 then some f.2 else none).getD other
      = if Text.holdsWord word fragment then type
        else (rest.findSome? fun f =>
          if Text.holdsWord word f.1 then some f.2 else none).getD other := by
  cases h : Text.holdsWord word fragment <;> simp [h]

theorem declaredType_eq (word : String) :
    declaredType word = (fragmentType? word).getD .numeric := by
  simp only [declaredType, fragmentType?, typeFragments, getD_findSome?_cons, List.any_cons,
    List.any_nil, Bool.or_false, Bool.or_eq_true, List.findSome?_nil, Option.getD_none]
  grind

theorem takes_acceptHolding? (t : Token) (s : TokenStream) :
    Takes (acceptHolding? typeFragments) (.token t s) (fragmentType? t.text)
      (if (fragmentType? t.text).isSome then s else .token t s) := by
  intro cursor suffixes
  rw [acceptHolding?, bind_apply_ok (peek_of_token rfl)]
  have hfound : ((some t).bind fun t => typeFragments.findSome? fun f =>
      if Text.holdsWord t.text f.1 then some f.2 else none) = fragmentType? t.text := rfl
  rw [hfound]
  cases fragmentType? t.text <;> rfl

theorem takes_isModifierNext_of_not (h : ∀ word ∈ modifierStarts, t.is word = false)
    (s : TokenStream) : Takes isModifierNext (.token t s) false (.token t s) := by
  have hnot : modifierStarts.any t.is = false := by simpa using h
  exact hnot ▸ takes_isNext t s modifierStarts

theorem takes_typeSizes_of_at (h : s.At definitionEnds) : Takes typeSizes s ⟨⟩ s :=
  (takes_accept_of_at h (by decide)).bind (takes_pure _ _)

/-- A word that is no modifier is the type, or stands for one that is not known. -/
theorem takes_columnType (h : ∀ word ∈ definitionEnds, t.is word = false)
    (hbehind : s.At definitionEnds) : Takes columnType (.token t s) (declaredType t.text) s := by
  have hmodifier : Takes isModifierNext (.token t s) false (.token t s) :=
    takes_isModifierNext_of_not (fun word hword => h word (List.mem_append_left _ hword)) s
  have hend : Takes (isNext [",", ")"]) (.token t s) false (.token t s) := by
    have hnot : listEnds.any t.is = false := by
      simpa using fun word hword => h word (List.mem_append_right _ hword)
    exact hnot ▸ takes_isNext t s listEnds
  have hread := takes_acceptHolding? t s
  rw [declaredType_eq]
  cases htype : fragmentType? t.text with
  | none =>
      rw [htype] at hread
      have hatEnd : Takes atEnd (.token t s) false (.token t s) :=
        fun _ _ => bind_apply_ok (peek_of_token rfl) _
      have hknown : Takes knownType? (.token t s) none (.token t s) :=
        hread.bind (takes_pure _ _)
      exact hmodifier.bind (hknown.bind (hatEnd.bind (hend.bind
        (hmodifier.bind ((takes_expectToken t s).bind (takes_pure _ _))))))
  | some type =>
      rw [htype] at hread
      have hknown : Takes knownType? (.token t s) (some type) s := by
        refine hread.bind ?_
        cases type with
        | text => exact (takes_typeSizes_of_at hbehind).bind (takes_pure _ _)
        | integer => exact takes_pure _ _
        | real => exact takes_pure _ _
        | none => exact takes_pure _ _
        | numeric => exact takes_pure _ _
      exact hmodifier.bind (hknown.bind (takes_pure _ _))

/-- Without a type a modifier or the end of the definition is next. -/
theorem takes_columnType_absent (h : s.At definitionEnds) : Takes columnType s .none s := by
  have hatEnd : Takes atEnd s false s := takes_atEnd_of_at h
  rcases h.of_append with hstart | hend
  · have hmodifier : Takes isModifierNext s true s := takes_isNext_of_at hstart (by decide)
    have hnot : Takes (isNext [",", ")"]) s false s := takes_isNext_of_at hstart (by decide)
    exact hmodifier.bind ((takes_pure none s).bind (hatEnd.bind (hnot.bind
      (hmodifier.bind (takes_pure _ _)))))
  · have hmodifier : Takes isModifierNext s false s := takes_isNext_of_at hend (by decide)
    have hnext : Takes (isNext [",", ")"]) s true s := takes_isNext_of_at hend (by decide)
    have hknown : Takes knownType? s none s := by
      obtain ⟨word, hmem, s', hword⟩ := hend
      have hall : ∀ word ∈ listEnds, fragmentType? word = none := by decide
      cases hword with
      | @cons _ _ t s _ his _ =>
          have hread := takes_acceptHolding? t s
          rw [fragmentType?_of_is his, hall word hmem] at hread
          exact hread.bind (takes_pure _ _)
    exact hmodifier.bind (hknown.bind (hatEnd.bind (hnext.bind (takes_pure _ _))))

theorem takes_expectNumber {n : Nat} (h : Numeral t n) (hs : Lexed ⟨.token t s, 0, true⟩) :
    Takes expectNumber (.token t s) (Int64.ofNat n) s := by
  obtain ⟨hkind, rfl, hlt⟩ := h
  have hreads := hs.reads rfl
  rw [hkind] at hreads
  have hvalue := integerOfText?_of_digits hreads.1 hreads.2 hlt
  rw [String.ofList_toList] at hvalue
  intro cursor suffixes
  rw [expectNumber_eq_takeNext, takeNext_of_token rfl, if_pos hkind, hvalue]
  rfl

/-- The type of a column is read as it stands there. -/
theorem takes_declaredType {type : ColumnType} (h : SaysType s type s')
    (hbehind : s'.At definitionEnds) (hs : Lexed ⟨s, 0, true⟩) : Takes columnType s type s' := by
  cases h with
  | absent => exact takes_columnType_absent hbehind
  | @word word type s s' hmem hword =>
      obtain _ | ⟨his, _ | _⟩ := hword
      have hall : ∀ entry ∈ [("INTEGER", ColumnType.integer), ("TEXT", .text), ("BLOB", .none),
          ("REAL", .real)], (fragmentType? entry.1).getD .numeric = entry.2 ∧
            ∀ other ∈ definitionEnds, Text.sameWord entry.1 other = false := by decide
      obtain ⟨htype, hother⟩ := hall _ hmem
      have hread := takes_columnType
        (fun other hmem => (is_eq_of_is his other).trans (hother other hmem)) hbehind
      rwa [declaredType_eq, fragmentType?_of_is his, htype] at hread
  | @sized size n s s₁ s' hwords hsize hclose =>
      have hs₁ : Lexed ⟨.token size s₁, 0, true⟩ := hs.of_leadsTo hwords.leadsTo
      have hnext : s.At ["VARCHAR"] := hwords.at
      have hmodifier : Takes isModifierNext s false s := takes_isNext_of_at hnext (by decide)
      have hclosed : s₁.At [")"] := hclose.at
      cases hwords with
      | @cons _ _ t s _ his hopen =>
          have htext : fragmentType? "VARCHAR" = some .text := by decide
          have hread := takes_acceptHolding? t s
          rw [fragmentType?_of_is his, htext] at hread
          have hsizes : Takes typeSizes s ⟨⟩ s' :=
            (takes_accept hopen).bind ((takes_expectNumber hsize hs₁).bind
              ((takes_accept_of_at hclosed (by decide)).bind (takes_expect hclose)))
          have hknown : Takes knownType? (.token t s) (some .text) s' :=
            hread.bind (hsizes.bind (takes_pure _ _))
          exact hmodifier.bind (hknown.bind (takes_pure _ _))

end Types

/-! ## Columns and constraints -/

section Columns

variable {s s₁ s₂ s' : TokenStream} {name : Token}

theorem takes_columnDefinition (b : Bindings) {repeated : Bool} {type : ColumnType}
    {said : List Said} {default : Value} (hrepeated : Takes (accept name.name) s repeated s₁)
    (htype : Takes columnType s₁ type s₂) (hsaid : SaysModifiers s₂ said s')
    (hbehind : s'.At listEnds) (hs : Lexed ⟨s₂, 0, true⟩)
    (hdefault : (lastDefault said).coerce type = .ok default) :
    Takes (columnDefinition b) (.token name s)
      ⟨name.name, type, allFlags said, default, 0⟩ s' := by
  have hflags : addFlags .empty said = allFlags said := by
    simp [addFlags, allFlags, ColumnFlags.empty]
  have hmodifiers := takes_modifiers b hsaid hbehind hs .empty .null (Nat.lt_succ_self _)
  have hdeclare : Column.declare name.name type (allFlags said) (lastDefault said)
      = .ok ⟨name.name, type, allFlags said, default, 0⟩ := by
    rw [Column.declare, hdefault]
    rfl
  refine (takes_expectName name s).bind (hrepeated.bind (htype.bind fun cursor suffixes => ?_))
  rw [bind_apply_ok (get_apply _), bind_apply_ok (hmodifiers cursor suffixes)]
  dsimp only
  rw [hflags]
  exact congrFun (congrArg settle hdeclare) _

theorem takes_columnDefinition_of_defines (b : Bindings) {c : Column} (h : DefinesColumn s c s')
    (hbehind : s'.At listEnds) (hs : Lexed ⟨s, 0, true⟩) : Takes (columnDefinition b) s c s' := by
  cases h with
  | @intro name next s s₁ _ type said default hkind hname hnext htype hsaid hdefault =>
      have hunquoted : name.name = name.text := by rw [Token.name, Token.unquoted, hkind]
      have hlexed : Lexed ⟨.token next s, 0, true⟩ := hs.of_leadsTo (.token _ (.refl _))
      have hrepeated : Takes (accept name.name) (.token next s) false (.token next s) :=
        fun _ _ => accept_of_not_is rfl (hunquoted ▸ hnext)
      have hread := takes_columnDefinition b hrepeated
        (takes_declaredType htype (hsaid.at hbehind) hlexed) hsaid hbehind
        (hlexed.of_leadsTo htype.leadsTo) hdefault
      rwa [hunquoted] at hread

theorem takes_tableConstraint_of_not (h : ∀ word ∈ constraintStarts, name.is word = false)
    (s : TokenStream) : Takes tableConstraint (.token name s) false (.token name s) := by
  simp only [constraintStarts, List.forall_mem_cons] at h
  obtain ⟨hconstraint, hprimary, hunique, -⟩ := h
  have hnamed : Takes (isNext ["CONSTRAINT"]) (.token name s) false (.token name s) := by
    have hnot : ["CONSTRAINT"].any name.is = false := by simp [hconstraint]
    exact hnot ▸ takes_isNext name s _
  have hkind : Takes (acceptOne? [("PRIMARY", true), ("UNIQUE", false)]) (.token name s) none
      (.token name s) := fun _ _ => by
    rw [acceptOne?_of_token rfl]
    simp [meaning?, hprimary, hunique]
  exact hnamed.bind (hkind.bind (takes_pure _ _))

theorem takes_tableConstraint_of_defines {c : Column} (h : DefinesColumn s c s') :
    Takes tableConstraint s false s := by
  cases h with
  | intro _ hname _ _ _ _ =>
      have hmem : ∀ word ∈ constraintStarts, word ∈ modifierStarts := by decide
      exact takes_tableConstraint_of_not (fun word hword => hname word (hmem word hword)) _

/-- A constraint of the table is read where another one or the end of the definitions is next. -/
theorem takes_tableConstraint (h : TableConstraint s s') (hbehind : s'.At listEnds) :
    Takes tableConstraint s true s' := by
  obtain ⟨words, hmem, s₁, s₂, s₃, hnaming, hwords, hcolumns, hconflict⟩ := h
  obtain ⟨names, hnames⟩ := takes_indexedColumns hcolumns
  have hrest : Takes (do let _ ← indexedColumns; conflictClause; return true) s₂ true s' :=
    hnames.bind ((takes_conflictClause hconflict hbehind (by decide)).bind (takes_pure _ _))
  let kinds := [("PRIMARY", true), ("UNIQUE", false)]
  obtain ⟨word, isPrimary, s₀, hword, hkind, hfrom⟩ : ∃ word isPrimary s₀, Words [word] s₁ s₀ ∧
      (word, isPrimary) ∈ kinds ∧ Takes (constraintFrom (some isPrimary)) s₀ true s' := by
    simp only [List.mem_cons, List.not_mem_nil, or_false] at hmem
    rcases hmem with rfl | rfl
    · cases hwords with
      | cons his hkey =>
          exact ⟨_, true, _, .cons his (.nil _), by decide, (takes_expect hkey).bind hrest⟩
    · exact ⟨_, false, _, hwords, by decide, hrest⟩
  have hall : ∀ kind ∈ kinds, meaning? kinds ⟨.word, kind.1, 0⟩ = some kind.2 ∧
      ["CONSTRAINT"].any (Text.sameWord kind.1) = false := by decide
  obtain ⟨hmeaning, hnot⟩ := hall _ hkind
  rcases hnaming with rfl | ⟨name, hnaming⟩
  · have hnamed : Takes (isNext ["CONSTRAINT"]) s false s :=
      takes_isNext_of_at hword.at (by simpa using hnot)
    cases hword with
    | cons his hword =>
        cases hword
        exact hnamed.bind ((takes_acceptOne? his hmeaning).bind hfrom)
  · have hnamed : Takes (isNext ["CONSTRAINT"]) s true s :=
      takes_isNext_of_at hnaming.at (by decide)
    have hsome : Takes (some <$> expectOne kinds) s₁ (some isPrimary) s₀ :=
      (takes_expectOne hword hmeaning).bind (takes_pure _ _)
    exact hnamed.bind ((takes_expect hnaming).bind ((takes_expectToken name s₁).bind
      (hsome.bind hfrom)))

/-- The constraints behind the columns are read to the last. -/
theorem takes_moreConstraints (h : TableConstraints s s') (hbehind : s'.At [")"]) {budget : Nat}
    (hbudget : s.length < budget) : Takes (moreConstraints budget) s ⟨⟩ s' := by
  induction h generalizing budget with
  | nil s =>
      obtain ⟨budget, rfl⟩ : ∃ n, budget = n + 1 := ⟨budget - 1, by omega⟩
      exact (takes_accept_of_at hbehind (by decide)).bind (takes_pure _ _)
  | @cons s s₁ s₂ s' hcomma hconstraint hmore ih =>
      obtain ⟨budget, rfl⟩ : ∃ n, budget = n + 1 := ⟨budget - 1, by omega⟩
      have hlt := hcomma.beyond.length_lt
      have hle := hconstraint.leadsTo.length_le
      have hnext := hmore.at (hbehind.mono (by decide))
      exact (takes_accept hcomma).bind ((takes_tableConstraint hconstraint hnext).bind
        (ih hbehind (by omega)))

/-- Columns and constraints are read up to the parenthesis that closes, with all that each column
says. -/
theorem takes_definitions (b : Bindings) {columns : List Column} (h : DefinesColumns s columns s')
    (hbehind : s'.At [")"]) (hs : Lexed ⟨s, 0, true⟩) {budget : Nat} (hbudget : s.length < budget) :
    Takes (definitions b budget) s columns s' := by
  induction h generalizing budget with
  | @last s s₁ s' c hcolumn hconstraints =>
      obtain ⟨budget, rfl⟩ : ∃ n, budget = n + 1 := ⟨budget - 1, by omega⟩
      have hlt := hcolumn.beyond.length_lt
      have hcloses : ∀ word ∈ [")"], word ∈ listEnds := by decide
      have hnext := hconstraints.at (hbehind.mono hcloses)
      have hread := takes_columnDefinition_of_defines b hcolumn hnext hs
      refine (takes_tableConstraint_of_defines hcolumn).bind (hread.bind ?_)
      cases hconstraints with
      | nil => exact (takes_accept_of_at hbehind (by decide)).bind (takes_pure _ _)
      | @cons _ s₂ s₃ _ hcomma hconstraint hmore =>
          have hlt' := hcomma.beyond.length_lt
          have hle := hconstraint.leadsTo.length_le
          obtain ⟨budget, rfl⟩ : ∃ n, budget = n + 1 := ⟨budget - 1, by omega⟩
          have hnone : Takes (definitions b (budget + 1)) s₂ [] s' :=
            (takes_tableConstraint hconstraint
              (hmore.at (hbehind.mono hcloses))).bind
              ((takes_moreConstraints hmore hbehind (by omega)).bind (takes_pure _ _))
          exact (takes_accept hcomma).bind (hnone.bind (takes_pure _ _))
  | @more s s₁ s₂ s' c cs hcolumn hcomma _ ih =>
      obtain ⟨budget, rfl⟩ : ∃ n, budget = n + 1 := ⟨budget - 1, by omega⟩
      have hlt := hcolumn.beyond.length_lt
      have hlt' := hcomma.beyond.length_lt
      have hs₂ : Lexed ⟨s₂, 0, true⟩ :=
        hs.of_leadsTo (hcolumn.beyond.leadsTo.trans hcomma.leadsTo)
      have hread := takes_columnDefinition_of_defines b hcolumn (hcomma.at_of_mem (by decide)) hs
      exact (takes_tableConstraint_of_defines hcolumn).bind (hread.bind
        ((takes_accept hcomma).bind ((ih hbehind hs₂ (by omega)).bind (takes_pure _ _))))

end Columns

end Parse

end OnePassSql
