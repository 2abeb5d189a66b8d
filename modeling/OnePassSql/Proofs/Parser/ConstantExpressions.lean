import OnePassSql.Proofs.Parser.Derivations

/-!
Expressions up to the first form that stands behind an operand, as they are read for the default of a
column. They are read as any expression is, if every form stands inside parentheses; but the list of
a call does not count as such, since only a parenthesized expression takes its forms again.
-/

namespace OnePassSql

/-- From the first stream an expression leads to the second in which every form that stands behind an
operand stands inside parentheses: those around an expression, or with `calls` also those of a call.
-/
def TokenStream.FormsEnclosed (calls : Bool) (s s' : TokenStream) : Prop :=
  ∃ marks, Spans calls false .operand s marks s'

namespace Parse

open Step TokenStream

/-- Reading an expression leaves the forms on or off as they were, with or without a fault, also
where it reads up to the first form. An expression is read the same up to the first form exactly if
every form in it stands inside a parenthesized expression. -/
theorem constantExpression_eq_iff (p : Parser) :
    (stateAfter expression p).suffixes = p.suffixes ∧
      (stateAfter constantExpression p).suffixes = p.suffixes ∧
      ∀ (e : Expr) (q : Parser), expression p = .ok e q →
        (constantExpression p = .ok e q ↔ p.ahead.FormsEnclosed false q.ahead) := by
  refine ⟨(keepsSuffixes_expression p).symm, (keepsSuffixes_withSuffixes _ _ p).symm,
    fun e q h => ⟨fun hconstant => ?_, fun ⟨marks, hspans⟩ => ?_⟩⟩
  · obtain ⟨r, hread, rfl⟩ := withSuffixes_eq_ok hconstant
    obtain ⟨marks, htraces⟩ := tracedWhole_expression hread
    exact ⟨marks, htraces.derives⟩
  · obtain ⟨_, htraces⟩ := tracedWhole_expression h
    have hsuffixes : p.suffixes = q.suffixes := keepsSuffixes_expression.ok h
    have hends : StopsAt p.suffixes q.ahead := by
      rw [hsuffixes]
      exact stops_iff_stopsAt.mp (stops_of_expression h)
    have hoff : false = true → p.suffixes = true := nofun
    obtain ⟨hread, -⟩ := htraces.only hoff hspans hends
    rw [constantExpression, withSuffixes, hread, hsuffixes]

/-- The tokens of `a NOT NULL)` from a place on. -/
def formBeforeParenthesis (n : Nat) : TokenStream :=
  .token ⟨.word, "a", n⟩ (.token ⟨.word, "NOT", n + 2⟩ (.token ⟨.word, "NULL", n + 6⟩
    (.token ⟨.symbol, ")", n + 10⟩ (.done (n + 11)))))

/-- Inside parentheses the form is taken. -/
theorem spans_formBeforeParenthesis (calls : Bool) (n : Nat) :
    Spans calls true .operand (formBeforeParenthesis n) []
      (.token ⟨.symbol, ")", n + 10⟩ (.done (n + 11))) := by
  have hnot : Text.sameWord "NOT" "NOT" = true := by decide
  have hnull : Text.sameWord "NULL" "NULL" = true := by decide
  have hname : ∀ word ∈ operandStarts, Text.sameWord "a" word = false := by decide
  exact .atom (.inr ⟨nofun, hname⟩)
    (.form (.notNull (.head _) (.cons hnot (.cons hnull (.nil _)))) .nothing)

theorem words_parenthesis (n : Nat) :
    Words [")"] (.token ⟨.symbol, ")", n + 10⟩ (.done (n + 11))) (.done (n + 11)) :=
  have hclose : Text.sameWord ")" ")" = true := by decide
  .cons hclose (.nil _)

/-- A form in a parenthesized expression is read also where forms are off. -/
theorem constantExpression_eq_iff_group :
    expression (Parser.ofText "(a NOT NULL)")
        = .ok (.unary .notNull (.column "a")) ⟨.done 12, 0, true⟩ ∧
      constantExpression (Parser.ofText "(a NOT NULL)")
        = .ok (.unary .notNull (.column "a")) ⟨.done 12, 0, true⟩ := by
  have htokens : Parser.ofText "(a NOT NULL)"
      = ⟨.token ⟨.symbol, "(", 0⟩ (formBeforeParenthesis 1), 0, true⟩ := by
    decide +kernel
  have hread : expression ⟨.token ⟨.symbol, "(", 0⟩ (formBeforeParenthesis 1), 0, true⟩
      = .ok (.unary .notNull (.column "a")) ⟨.done 12, 0, true⟩ := by
    rfl
  have hspans : Spans false false .operand
      (.token ⟨.symbol, "(", 0⟩ (formBeforeParenthesis 1)) ([] ++ []) (.done 12) :=
    .group (by decide) (spans_formBeforeParenthesis false 1) (words_parenthesis 1) .nothing
  rw [htokens]
  exact ⟨hread, ((constantExpression_eq_iff _).2.2 _ _ hread).mpr ⟨_, hspans⟩⟩

/-- But an expression is not read the same if a form in it stands in the list of a call. -/
theorem not_constantExpression_eq :
    ¬∀ (p : Parser) (e : Expr) (q : Parser), p.suffixes = true → expression p = .ok e q →
      p.ahead.FormsEnclosed true q.ahead → constantExpression p = .ok e q := by
  intro h
  have hread : expression ⟨.token ⟨.word, "COALESCE", 0⟩ (.token ⟨.symbol, "(", 8⟩
      (formBeforeParenthesis 9)), 0, true⟩
        = .ok (.call "COALESCE" [.unary .notNull (.column "a")]) ⟨.done 20, 0, true⟩ := by
    rfl
  have hopen : Words ["("] (.token ⟨.symbol, "(", 8⟩ (formBeforeParenthesis 9))
      (formBeforeParenthesis 9) :=
    .cons (by decide) (.nil _)
  have hspans : Spans true false .operand (.token ⟨.word, "COALESCE", 0⟩
      (.token ⟨.symbol, "(", 8⟩ (formBeforeParenthesis 9))) ([] ++ []) (.done 20) :=
    .call (by decide) hopen (.last (spans_formBeforeParenthesis true 9)) (words_parenthesis 9)
      .nothing
  cases h _ _ _ rfl hread ⟨_, hspans⟩

end Parse

end OnePassSql
