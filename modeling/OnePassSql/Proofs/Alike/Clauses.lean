import OnePassSql.Proofs.Alike.Expression
import OnePassSql.Statement.Run

/-!
The clauses of statements act alike. Those of a SELECT do so also where only one text goes on, with
a clause that is behind all of them.
-/

namespace OnePassSql

open Step TokenStream

variable {α β : Type} {u v : TokenStream}

namespace Parse

/-! ## Clauses of a SELECT -/

section

variable (h : Tails u v)

include h

theorem actsAlike_boundExpression (b : Bindings) : ActsAlike u v (boundExpression b) :=
  (actsAlike_expression h).bind fun _ => runsAlike_pure rfl

theorem actsAlike_optionalExpression {keyword : String} (hpass : Passes u v [(keyword, ())])
    (b : Bindings) : ActsAlike u v (optionalExpression keyword b) := by
  refine (actsAlike_accept h hpass).bind fun found => ?_
  cases found with
  | true => exact (actsAlike_boundExpression h b).bind fun _ => runsAlike_pure rfl
  | false => exact runsAlike_pure rfl

theorem actsAlike_collation : ActsAlike u v collation := actsAlike_expectOne h (by decide)

theorem actsAlike_direction : ActsAlike u v direction :=
  (actsAlike_acceptOne? h (passes_of_tails h (by decide))).bind fun _ => runsAlike_pure rfl

theorem actsAlike_indexedColumn : ActsAlike u v indexedColumn := by
  refine (actsAlike_expectName h).bind fun name =>
    (actsAlike_accept h (passes_of_tails h (by decide))).bind fun found => ?_
  have hdirection : ActsAlike u v (do direction; return name) :=
    (actsAlike_direction h).bind fun _ => runsAlike_pure rfl
  cases found with
  | true => exact (actsAlike_collation h).bind fun _ => hdirection
  | false => exact hdirection

theorem actsAlike_indexedColumns : ActsAlike u v indexedColumns :=
  (actsAlike_expect h (by decide)).bind fun _ =>
    (actsAlike_commaSeparated h (actsAlike_indexedColumn h)).bind fun _ =>
      (actsAlike_expect h (by decide)).bind fun _ => runsAlike_pure rfl

/-- The first of the tokens that are none of the words is looked for alike. -/
theorem abreast_skipWords_go {words : List String}
    (hwords : ∀ word ∈ closers ++ clauseWords, words.any (Text.sameWord word) = false)
    {s s' : TokenStream} (hs : TokenStream.Abreast u v s s') :
    TokenStream.Abreast u v (skipWords.go words s) (skipWords.go words s') := by
  have hstays {t : Token} {word : String} (hreads : t.is word = true)
      (hword : word ∈ closers ++ clauseWords) : words.any t.is = false := by
    rw [show t.is = Text.sameWord word from funext (Text.sameWord_congr_left hreads)]
    exact hwords word hword
  induction hs with
  | last =>
      cases h with
      | ended n n' => exact .last
      | broken ch n n' => exact .last
      | closed s s' htext hword hreads =>
          have hmem := List.mem_append_left clauseWords hword
          rw [skipWords.go, skipWords.go, hstays hreads hmem,
            hstays ((htext.is_eq _).symm.trans hreads) hmem]
          exact .last
      | clause n s hword hreads =>
          rw [skipWords.go.eq_1, hstays hreads (List.mem_append_right closers hword)]
          exact .last
      | terminated n m hsemi =>
          rw [skipWords.go.eq_1, hstays hsemi.2 (by decide)]
          exact .last
  | token htext hadjoins hs ih =>
      rw [skipWords.go, skipWords.go, show Token.is _ = Token.is _ from funext htext.is_eq]
      split
      · exact ih
      · exact .token htext hadjoins hs

theorem actsAlike_skipWords {words : List String}
    (hwords : ∀ word ∈ closers ++ clauseWords, words.any (Text.sameWord word) = false) :
    ActsAlike u v (skipWords words) :=
  ⟨movesOn_skipWords words, fun hs _ =>
    ⟨_, _, rfl, rfl, abreast_skipWords_go h hwords hs.ahead, hs.cursor, hs.suffixes⟩⟩

end

end Parse

namespace Select

open Parse

variable (h : Tails u v)

include h

theorem actsAlike_compound? : ActsAlike u v compound? := by
  refine (actsAlike_acceptOne? h (passes_of_tails h (by decide))).bind fun found => ?_
  split
  · exact (actsAlike_accept h (passes_of_tails h (by decide))).bind fun _ => runsAlike_pure rfl
  · exact runsAlike_pure rfl

theorem actsAlike_resultColumns (b : Bindings) : ActsAlike u v (resultColumns b) := by
  refine (actsAlike_accept h (passes_of_tails h (by decide))).bind fun star => ?_
  cases star with
  | true => exact runsAlike_pure rfl
  | false =>
      exact (actsAlike_commaSeparated h (actsAlike_boundExpression h b)).bind fun _ =>
        runsAlike_pure rfl

theorem actsAlike_grouping : ActsAlike u v grouping := by
  refine (actsAlike_accept h (passes_of_tails h (by decide))).bind fun found => ?_
  cases found with
  | false => exact runsAlike_pure rfl
  | true =>
      refine (actsAlike_expect h (by decide)).bind fun _ =>
        (actsAlike_commaSeparated h (actsAlike_expression h)).bind fun _ =>
          (actsAlike_accept h (passes_of_tails h (by decide))).bind fun having => ?_
      cases having with
      | true => exact (actsAlike_expression h).bind fun _ => runsAlike_pure rfl
      | false => exact runsAlike_pure rfl

theorem actsAlike_joinStart? : ActsAlike u v joinStart? :=
  actsAlike_acceptOne? h (passes_of_tails h (by decide))

theorem actsAlike_joinCondition : ActsAlike u v joinCondition := by
  refine (actsAlike_accept h (passes_of_tails h (by decide))).bind fun on => ?_
  cases on with
  | true => exact (actsAlike_expression h).bind fun _ => runsAlike_pure rfl
  | false =>
      refine (actsAlike_accept h (passes_of_tails h (by decide))).bind fun found => ?_
      cases found with
      | true => exact (actsAlike_indexedColumns h).bind fun _ => runsAlike_pure rfl
      | false => exact runsAlike_pure rfl

end Select

/-! ## Steps of every statement -/

namespace Parse

theorem movesOn_isNext (words : List String) : MovesOn (isNext words) :=
  movesOn_peek.bind fun _ => respects_pure _

theorem movesOn_acceptHolding? (fragments : List (String × α)) :
    MovesOn (acceptHolding? fragments) := by
  refine movesOn_peek.bind fun t => ?_
  dsimp only
  split
  · exact movesOn_skip.bind fun _ => respects_pure _
  · exact respects_pure _

theorem isNext_of_token {p : Parser} {first : Token} {rest : TokenStream}
    (h : p.ahead = .token first rest) (words : List String) :
    isNext words p = .ok (words.any first.is) p :=
  bind_apply_ok (peek_of_token h) _

theorem isNext_of_done {p : Parser} {n : Nat} (h : p.ahead = .done n) (words : List String) :
    isNext words p = .ok false p :=
  bind_apply_ok (peek_of_done h) _

theorem atEnd_of_token {p : Parser} {first : Token} {rest : TokenStream}
    (h : p.ahead = .token first rest) : atEnd p = .ok false p :=
  bind_apply_ok (peek_of_token h) _

theorem atEnd_of_done {p : Parser} {n : Nat} (h : p.ahead = .done n) : atEnd p = .ok true p :=
  bind_apply_ok (peek_of_done h) _

/-- The meaning of the first fragment that the token holds. -/
def held? (fragments : List (String × α)) (t : Token) : Option α :=
  fragments.findSome? fun f => if Text.holdsWord t.text f.1 then some f.2 else none

theorem acceptHolding?_of_token {p : Parser} {first : Token} {rest : TokenStream}
    (h : p.ahead = .token first rest) (fragments : List (String × α)) :
    acceptHolding? fragments p = match held? fragments first with
      | some a => .ok (some a) { p with ahead := rest }
      | none => .ok none p :=
  takeIf_of_token h (held? fragments)

theorem acceptHolding?_of_done {p : Parser} {n : Nat} (h : p.ahead = .done n)
    (fragments : List (String × α)) : acceptHolding? fragments p = .ok none p := by
  rw [acceptHolding?, bind_apply_ok (peek_of_done h)]
  rfl

theorem held?_of_is {t : Token} {word : String} (h : t.is word = true)
    (fragments : List (String × α)) : held? fragments t = held? fragments ⟨.word, word, 0⟩ := by
  have hholds : ∀ fragment, Text.holdsWord t.text fragment = Text.holdsWord word fragment := by
    intro fragment
    rw [Text.holdsWord, Text.holdsWord, eq_of_beq h]
  simp only [held?, hholds]

section

variable (h : WholeTails u v)

include h

theorem passes_of_wholeTails {options : List (String × α)}
    (hnone : meaning? options ⟨.word, ";", 0⟩ = none) : Passes u v options := by
  rintro ⟨n, rfl⟩ t s rfl
  cases h.tails with
  | clause _ _ hword hreads =>
      exact absurd ⟨⟨n, rfl⟩, _, _, rfl, _, hword, hreads⟩ h.not_beforeClause
  | terminated _ _ hsemi => rw [meaning?_of_is hsemi.2, hnone]

theorem actsAlike_isNext {words : List String}
    (hnone : words.any (Text.sameWord ";") = false) : ActsAlike u v (isNext words) := by
  refine ⟨movesOn_isNext words, ?_⟩
  rintro ⟨s, cursor, suffixes⟩ ⟨s', cursor', suffixes'⟩ ⟨hs, rfl, rfl⟩
  dsimp only at hs
  have hgives {t t' : Token} (htext : t.SameText t') : words.any t.is = words.any t'.is := by
    rw [show t.is = t'.is from funext htext.is_eq]
  cases hs.heads h.tails with
  | token htext hadjoins hrest =>
      rw [isNext_of_token rfl, isNext_of_token rfl, hgives htext]
      exact fun _ => ⟨_, _, rfl, rfl, hs, rfl, rfl⟩
  | ended hu hv =>
      rw [isNext_of_done rfl, isNext_of_done rfl]
      exact fun _ => ⟨_, _, rfl, rfl, hs, rfl, rfl⟩
  | broken hu hv =>
      exact follows_of_broken (looksFirst_peek.bind _) (looksFirst_peek.bind _) rfl rfl
  | closed hu hv htext hword hreads =>
      rw [isNext_of_token rfl, isNext_of_token rfl, hgives htext]
      exact fun _ => ⟨_, _, rfl, rfl, hs, rfl, rfl⟩
  | clause hu hv hword hreads =>
      exact absurd ⟨⟨_, hu⟩, _, _, hv, _, hword, hreads⟩ h.not_beforeClause
  | @terminated n m t hu hv hsemi =>
      have hsame : t.is = Text.sameWord ";" := funext (Text.sameWord_congr_left hsemi.2)
      rw [isNext_of_done rfl, isNext_of_token rfl, hsame, hnone]
      exact fun _ => ⟨_, _, rfl, rfl, hs, rfl, rfl⟩

theorem actsAlike_acceptHolding? {fragments : List (String × α)}
    (hnone : held? fragments ⟨.word, ";", 0⟩ = none) :
    ActsAlike u v (acceptHolding? fragments) := by
  refine ⟨movesOn_acceptHolding? fragments, ?_⟩
  rintro ⟨s, cursor, suffixes⟩ ⟨s', cursor', suffixes'⟩ ⟨hs, rfl, rfl⟩
  dsimp only at hs
  have hgives {t t' : Token} (htext : t.SameText t') : held? fragments t = held? fragments t' := by
    rw [held?, held?, htext.text]
  cases hs.heads h.tails with
  | token htext hadjoins hrest =>
      rw [acceptHolding?_of_token rfl, acceptHolding?_of_token rfl, hgives htext]
      cases held? fragments _ with
      | none => exact fun _ => ⟨_, _, rfl, rfl, hs, rfl, rfl⟩
      | some a => exact fun _ => ⟨_, _, rfl, rfl, hrest, rfl, rfl⟩
  | ended hu hv =>
      rw [acceptHolding?_of_done rfl, acceptHolding?_of_done rfl]
      exact fun _ => ⟨_, _, rfl, rfl, hs, rfl, rfl⟩
  | broken hu hv =>
      exact follows_of_broken (looksFirst_peek.bind _) (looksFirst_peek.bind _) rfl rfl
  | closed hu hv htext hword hreads =>
      rw [acceptHolding?_of_token rfl, acceptHolding?_of_token rfl, hgives htext]
      cases held? fragments _ with
      | none => exact fun _ => ⟨_, _, rfl, rfl, hs, rfl, rfl⟩
      | some a =>
          intro hview
          subst hu
          exact absurd hview (not_leadsTo_token _ _)
  | clause hu hv hword hreads =>
      exact absurd ⟨⟨_, hu⟩, _, _, hv, _, hword, hreads⟩ h.not_beforeClause
  | terminated hu hv hsemi =>
      rw [acceptHolding?_of_done rfl, acceptHolding?_of_token rfl, held?_of_is hsemi.2, hnone]
      exact fun _ => ⟨_, _, rfl, rfl, hs, rfl, rfl⟩

theorem actsAlike_ifExists (negated : Bool) : ActsAlike u v (ifExists negated) := by
  refine (actsAlike_accept h.tails (passes_of_wholeTails h (by decide))).bind fun found => ?_
  have hexists : ActsAlike u v (do expect "EXISTS"; return true) :=
    (actsAlike_expect h.tails (by decide)).bind fun _ => runsAlike_pure rfl
  cases found with
  | false => exact runsAlike_pure rfl
  | true =>
      cases negated with
      | false => exact hexists
      | true => exact (actsAlike_expect h.tails (by decide)).bind fun _ => hexists

theorem actsAlike_orAction : ActsAlike u v orAction := by
  refine (actsAlike_accept h.tails (passes_of_wholeTails h (by decide))).bind fun found => ?_
  cases found with
  | false => exact runsAlike_pure rfl
  | true => exact actsAlike_expectOne h.tails (by decide)

theorem actsAlike_conflictClause : ActsAlike u v conflictClause := by
  refine (actsAlike_accept h.tails (passes_of_wholeTails h (by decide))).bind fun found => ?_
  cases found with
  | false => exact runsAlike_pure rfl
  | true =>
      exact (actsAlike_expect h.tails (by decide)).bind fun _ =>
        actsAlike_expectOne h.tails (by decide)

omit h in
theorem leadsTo_skipStatement_go (s : TokenStream) : s.LeadsTo (skipStatement.go s) := by
  induction s with
  | token first rest ih =>
      rw [skipStatement.go]
      split
      · exact .refl _
      · exact .token first ih
  | done n => exact .refl _
  | fault ch n => exact .refl _

/-- A statement that is skipped ends at the same sign, or where its text does. -/
theorem abreast_skipStatement_go {s s' : TokenStream} (hs : TokenStream.Abreast u v s s')
    (hview : (skipStatement.go s).LeadsTo u) :
    TokenStream.Abreast u v (skipStatement.go s) (skipStatement.go s') := by
  induction hs with
  | last =>
      cases h.tails with
      | ended n n' => exact .last
      | broken ch n n' => exact .last
      | @closed t t' word s s' htext hword hreads =>
          cases hsign : t.is ";" with
          | true =>
              simp only [skipStatement.go, ← htext.is_eq, hsign, if_true]
              exact .last
          | false =>
              simp only [skipStatement.go, hsign, Bool.false_eq_true, if_false] at hview
              exact absurd ((leadsTo_skipStatement_go s).trans hview) (not_leadsTo_token _ _)
      | clause n s hword hreads =>
          exact absurd ⟨⟨n, rfl⟩, _, s, rfl, _, hword, hreads⟩ h.not_beforeClause
      | terminated n m hsemi =>
          simp only [skipStatement.go, hsemi.2, if_true]
          exact .last
  | @token t t' s s' htext hadjoins hs ih =>
      cases hsign : t.is ";" with
      | true =>
          simp only [skipStatement.go, ← htext.is_eq, hsign, if_true]
          exact .token htext hadjoins hs
      | false =>
          simp only [skipStatement.go, ← htext.is_eq, hsign, Bool.false_eq_true, if_false]
            at hview ⊢
          exact ih hview

theorem actsAlike_skipStatement : ActsAlike u v skipStatement := by
  have hmodify : ActsAlike u v (modify fun p => { p with ahead := skipStatement.go p.ahead }) :=
    ⟨respects_modify fun p => leadsTo_skipStatement_go p.ahead, fun hs hview =>
      ⟨_, _, rfl, rfl, abreast_skipStatement_go h hs.ahead hview, hs.cursor, hs.suffixes⟩⟩
  have hlook : (do let _ ← peek : Parse Unit) = isNext [] >>= fun _ => pure ⟨⟩ := by
    rw [isNext, bind_assoc]
    simp only [pure_bind]
  have hpeek : ActsAlike u v (do let _ ← peek : Parse Unit) := by
    rw [hlook]
    exact (actsAlike_isNext h rfl).bind fun _ => runsAlike_pure rfl
  exact hmodify.bind fun _ => hpeek

end

end Parse

namespace Select

open Parse

variable (h : WholeTails u v)

include h

theorem actsAlike_ordering : ActsAlike u v ordering := by
  refine (actsAlike_accept h.tails (passes_of_wholeTails h (by decide))).bind fun found => ?_
  cases found with
  | false => exact runsAlike_pure rfl
  | true =>
      have hterm : ActsAlike u v orderingTerm :=
        (actsAlike_expression h.tails).bind fun _ => actsAlike_direction h.tails
      exact (actsAlike_expect h.tails (by decide)).bind fun _ =>
        (actsAlike_commaSeparated h.tails hterm).bind fun _ => runsAlike_pure rfl

theorem actsAlike_limit : ActsAlike u v limit := by
  refine (actsAlike_accept h.tails (passes_of_wholeTails h (by decide))).bind fun found => ?_
  cases found with
  | false => exact runsAlike_pure rfl
  | true =>
      refine (actsAlike_expectNumber h.tails).bind fun _ =>
        (actsAlike_acceptOne? h.tails (passes_of_wholeTails h (by decide))).bind fun more => ?_
      split
      · exact (actsAlike_expectNumber h.tails).bind fun _ => runsAlike_pure rfl
      · exact runsAlike_pure rfl

end Select

end OnePassSql
