import OnePassSql.Proofs.Alike.Words
import OnePassSql.Proofs.Parser.Budget
import OnePassSql.Proofs.Result

/-!
Lists and operators are read alike from tokens that go abreast. What stands behind the place up to
which they do is no part of an operator.
-/

namespace OnePassSql.Parse

open Step TokenStream

variable {α : Type} {u v : TokenStream}

/-! ## Loops with a budget -/

/-- A loop that takes a token in each round runs alike on budgets taken from the tokens left. -/
theorem runsAlike_onTokens {V : α → α → Prop} {loop : Nat → Parse α}
    (hfree : ∀ b, BudgetFree loop 1 1 b)
    (halike : ∀ b, RunsAlike (Parser.comparison u v) V (loop b) (loop b)) :
    RunsAlike (Parser.comparison u v) V (onBudget (fun p => p.ahead.length + 1) loop)
      (onBudget (fun p => p.ahead.length + 1) loop) :=
  runsAlike_onBudget hfree halike fun p => Nat.le_of_eq (by rw [Nat.one_mul])

theorem runsAlike_separated (h : Tails u v) {V : α → α → Prop} (htotal : ∀ a, ∃ a', V a a')
    {form : Parse α} (hform : RunsAlike (Parser.comparison u v) V form form) (budget : Nat) :
    RunsAlike (Parser.comparison u v) (List.Forall₂ V) (separated form budget)
      (separated form budget) := by
  have htotal' (as : List α) : ∃ as', List.Forall₂ V as as' :=
    Result.exists_forall₂ fun a _ => htotal a
  induction budget with
  | zero => exact runsAlike_throw rfl
  | succ budget ih =>
      refine hform.bind_of_total htotal fun a a' ha =>
        (actsAlike_accept h (passes_of_tails h (by decide))).bind fun more => ?_
      cases more with
      | false => exact runsAlike_pure (.cons ha .nil)
      | true => exact ih.bind_of_total htotal' fun as as' has => runsAlike_pure (.cons ha has)

theorem runsAlike_commaSeparated (h : Tails u v) {V : α → α → Prop} (htotal : ∀ a, ∃ a', V a a')
    {form : Parse α} (hform : RunsAlike (Parser.comparison u v) V form form) :
    RunsAlike (Parser.comparison u v) (List.Forall₂ V) (commaSeparated form)
      (commaSeparated form) :=
  runsAlike_onTokens (budgetFree_separated hform.moves) (runsAlike_separated h htotal hform)

theorem actsAlike_commaSeparated (h : Tails u v) {form : Parse α} (hform : ActsAlike u v form) :
    ActsAlike u v (commaSeparated form) := by
  have hlist := runsAlike_commaSeparated h (fun a => ⟨a, rfl⟩) hform
  rwa [List.forall₂_eq_eq_eq] at hlist

theorem actsAlike_withSuffixes {form : Parse α} (hform : ActsAlike u v form) (on : Bool) :
    ActsAlike u v (withSuffixes on form) := by
  refine ⟨movesOn_withSuffixes hform.moves on, ?_⟩
  rintro ⟨s, cursor, suffixes⟩ ⟨s', cursor', suffixes'⟩ ⟨hs, rfl, rfl⟩
  have hon : Parser.Abreast u v ⟨s, cursor, on⟩ ⟨s', cursor, on⟩ := ⟨hs, rfl, rfl⟩
  have hfollows := hform.follows hon
  unfold withSuffixes
  cases hfirst : form ⟨s, cursor, on⟩ with
  | ok a q =>
      intro hview
      obtain ⟨_, q', hsecond, rfl, hq⟩ := hfollows.ok hfirst hview
      rw [hsecond]
      exact ⟨_, _, rfl, rfl, hq.ahead, hq.cursor, rfl⟩
  | error e q =>
      intro hends
      obtain ⟨e', q', hsecond, hsame, -⟩ := hfollows.error hfirst hends
      rw [hsecond]
      exact ⟨_, _, rfl, hsame, trivial⟩

/-! ## Operators -/

/-- Neither what ends something nor a word that starts a clause is part of an operator. -/
theorem not_operator {t : Token} {word : String} (h : t.is word = true)
    (hword : word ∈ closers ++ clauseWords) :
    pairedSigns t = [] ∧ meaning? singleSigns t = none ∧ ∀ first, paired? first t = none := by
  have hall : ∀ word ∈ closers ++ clauseWords,
      (Text.sameWord word "<" = false ∧ Text.sameWord word ">" = false ∧
        Text.sameWord word "|" = false) ∧ meaning? singleSigns ⟨.word, word, 0⟩ = none := by
    decide
  obtain ⟨⟨hlt, hgt, hbar⟩, hsingle⟩ := hall word hword
  have his : ∀ sign, t.is sign = Text.sameWord word sign := Text.sameWord_congr_left h
  refine ⟨by simp [pairedSigns, his, hlt, hgt, hbar], (meaning?_of_is h _).trans hsingle, ?_⟩
  intro first
  have hnone : meaning? (pairedSigns first) t = none := by
    unfold pairedSigns
    repeat' split
    all_goals simp [meaning?, his, hlt, hgt, hbar]
  simp [paired?, hnone]

theorem peekOperator?_of_done {p : Parser} {n : Nat} (h : p.ahead = .done n) :
    peekOperator? p = .ok none p := by
  rw [peekOperator?, bind_apply_ok (peek_of_done h)]
  rfl

theorem peekOperator?_of_single {p : Parser} {first : Token} {rest : TokenStream}
    (h : p.ahead = .token first rest) (hsingle : pairedSigns first = []) :
    peekOperator? p = .ok ((meaning? singleSigns first).map fun op => (op, rest)) p := by
  rw [peekOperator?, bind_apply_ok (peek_of_token h)]
  dsimp only
  rw [bind_apply_ok (get_apply p), if_pos (by rw [hsingle]; rfl), h]
  rfl

/-- A sign that could be the first of two is not told from them if a character that no token starts
with is behind it. -/
theorem peekOperator?_of_brokenPair {p : Parser} {first : Token} {ch : Char} {n : Nat}
    (h : p.ahead = .token first (.fault ch n)) (hpair : pairedSigns first ≠ []) :
    peekOperator? p = .error (.lexical ch n) { p with ahead := .fault ch n } := by
  rw [peekOperator?, bind_apply_ok (peek_of_token h)]
  dsimp only
  rw [bind_apply_ok (get_apply p), if_neg (by rwa [List.isEmpty_iff]),
    bind_apply_ok (skip_of_token h)]
  exact bind_eq_error.mpr (.inl (peek_of_fault rfl))

/-- The operator of the first token, alone or with the second one, and what is behind it. -/
def operatorOf (first : Token) (second : Option Token) (rest : TokenStream) :
    Option (BinaryOp × TokenStream) :=
  match second.bind (paired? first) with
  | some op => some (op, rest.tail)
  | none => (meaning? singleSigns first).map fun op => (op, rest)

theorem peekOperator?_of_peek {p : Parser} {first : Token} {second : Option Token}
    {rest : TokenStream} (h : p.ahead = .token first rest)
    (hsecond : peek { p with ahead := rest } = .ok second { p with ahead := rest }) :
    peekOperator? p = .ok (operatorOf first second rest) p := by
  by_cases hsingle : pairedSigns first = []
  · have hnone : second.bind (paired? first) = none := by
      cases second <;> simp [paired?, hsingle, meaning?]
    rw [peekOperator?_of_single h hsingle, operatorOf, hnone]
  · rw [peekOperator?, bind_apply_ok (peek_of_token h)]
    dsimp only
    rw [bind_apply_ok (get_apply p), if_neg (by rwa [List.isEmpty_iff]),
      bind_apply_ok (skip_of_token h), bind_apply_ok hsecond, h]
    unfold operatorOf
    obtain ⟨ahead, cursor, suffixes⟩ := p
    cases h
    cases second.bind (paired? first) <;> rfl

/-- The same operator, with tokens behind it that go abreast. -/
def OperatorsAlike (u v : TokenStream) :
    Option (BinaryOp × TokenStream) → Option (BinaryOp × TokenStream) → Prop :=
  Option.Rel fun found found' => found.1 = found'.1 ∧ Abreast u v found.2 found'.2

theorem operatorsAlike_single {first first' : Token} {rest rest' : TokenStream}
    (htext : first.SameText first') (hrest : Abreast u v rest rest') :
    OperatorsAlike u v ((meaning? singleSigns first).map fun op => (op, rest))
      ((meaning? singleSigns first').map fun op => (op, rest')) := by
  rw [meaning?_of_sameText htext]
  cases meaning? singleSigns first' with
  | none => exact .none
  | some op => exact .some ⟨rfl, hrest⟩

theorem paired?_eq {t t' w w' : Token} {s s' : TokenStream} (ht : t.SameText t')
    (hw : w.SameText w') (hadjoins : (token w s).Adjoins t ↔ (token w' s').Adjoins t') :
    paired? t w = paired? t' w' := by
  by_cases hsemi : w.IsSemicolon
  · have hmem : ";" ∈ closers ++ clauseWords := by decide
    rw [(not_operator hsemi.2 hmem).2.2, (not_operator (hw.isSemicolon_iff.mp hsemi).2 hmem).2.2]
  · have hsemi' := mt hw.isSemicolon_iff.mpr hsemi
    have hsigns : pairedSigns t = pairedSigns t' := by simp only [pairedSigns, ht.is_eq]
    have hplace : (w.position = t.stop) = (w'.position = t'.stop) := by
      simpa [Adjoins, hsemi, hsemi'] using hadjoins
    simp only [paired?, hplace, hsigns, meaning?_of_sameText hw]

/-- Behind a first token of an operator the same is seen, if anything is. -/
theorem operatorsAlike_behind (h : Tails u v) {first first' : Token} {rest rest' : TokenStream}
    (htext : first.SameText first') (hadjoins : rest.Adjoins first ↔ rest'.Adjoins first')
    (hrest : Abreast u v rest rest') (hread : ∀ ch n, rest ≠ .fault ch n) (cursor : Nat)
    (suffixes : Bool) :
    ∃ second second',
      peek ⟨rest, cursor, suffixes⟩ = .ok second ⟨rest, cursor, suffixes⟩ ∧
      peek ⟨rest', cursor, suffixes⟩ = .ok second' ⟨rest', cursor, suffixes⟩ ∧
      OperatorsAlike u v (operatorOf first second rest) (operatorOf first' second' rest') := by
  have hsingle := operatorsAlike_single htext hrest
  cases hrest.heads h with
  | token htext' hadjoins' hrest' =>
      refine ⟨_, _, peek_of_token rfl, peek_of_token rfl, ?_⟩
      unfold operatorOf
      rw [Option.bind_some, Option.bind_some, paired?_eq htext htext' hadjoins]
      cases paired? _ _ with
      | some op => exact .some ⟨rfl, hrest'⟩
      | none => exact hsingle
  | ended hu hv => exact ⟨none, none, peek_of_done rfl, peek_of_done rfl, hsingle⟩
  | broken hu hv => exact absurd rfl (hread _ _)
  | closed hu hv htext' hword hreads =>
      have hmem := List.mem_append_left clauseWords hword
      have hnone := (not_operator hreads hmem).2.2
      have hnone' := (not_operator ((htext'.is_eq _).symm.trans hreads) hmem).2.2
      refine ⟨_, _, peek_of_token rfl, peek_of_token rfl, ?_⟩
      unfold operatorOf
      rw [Option.bind_some, Option.bind_some, hnone, hnone']
      exact hsingle
  | clause hu hv hword hreads =>
      have hnone := (not_operator hreads (List.mem_append_right closers hword)).2.2
      refine ⟨none, _, peek_of_done rfl, peek_of_token rfl, ?_⟩
      unfold operatorOf
      rw [Option.bind_some, hnone]
      exact hsingle
  | terminated hu hv hsemi =>
      have hnone := (not_operator hsemi.2 (by decide)).2.2
      refine ⟨none, _, peek_of_done rfl, peek_of_token rfl, ?_⟩
      unfold operatorOf
      rw [Option.bind_some, hnone]
      exact hsingle

theorem runsAlike_peekOperator? (h : Tails u v) :
    RunsAlike (Parser.comparison u v) (OperatorsAlike u v) peekOperator? peekOperator? := by
  refine ⟨movesOn_peekOperator?, ?_⟩
  rintro ⟨s, cursor, suffixes⟩ ⟨s', cursor', suffixes'⟩ ⟨hs, rfl, rfl⟩
  dsimp only at hs
  have hgives {found found' : Option (BinaryOp × TokenStream)}
      (hfound : OperatorsAlike u v found found') :
      Follows (Parser.comparison u v) (OperatorsAlike u v) (.ok found ⟨s, cursor, suffixes⟩)
        (.ok found' ⟨s', cursor, suffixes⟩) :=
    fun _ => ⟨_, _, rfl, hfound, hs, rfl, rfl⟩
  cases hs.heads h with
  | @token first first' rest rest' htext hadjoins hrest =>
      by_cases hread : ∀ ch n, rest ≠ .fault ch n
      · obtain ⟨second, second', hpeek, hpeek', hfound⟩ :=
          operatorsAlike_behind h htext hadjoins hrest hread cursor suffixes
        rw [peekOperator?_of_peek rfl hpeek, peekOperator?_of_peek rfl hpeek']
        exact hgives hfound
      simp only [not_forall, not_not] at hread
      obtain ⟨ch, n, rfl⟩ := hread
      have hsigns : pairedSigns first = pairedSigns first' := by
        simp only [pairedSigns, htext.is_eq]
      cases hrest.heads h with
      | @broken _ _ n' hu hv =>
          by_cases hsingle : pairedSigns first = []
          · rw [peekOperator?_of_single rfl hsingle, peekOperator?_of_single rfl (hsigns ▸ hsingle)]
            exact hgives (operatorsAlike_single htext hrest)
          · rw [peekOperator?_of_brokenPair rfl hsingle,
              peekOperator?_of_brokenPair rfl (hsigns ▸ hsingle)]
            exact fun _ => ⟨_, _, rfl, rfl, trivial⟩
  | ended hu hv =>
      rw [peekOperator?_of_done rfl, peekOperator?_of_done rfl]
      exact hgives .none
  | broken hu hv =>
      exact follows_of_broken looksFirst_peekOperator? looksFirst_peekOperator? rfl rfl
  | closed hu hv htext hword hreads =>
      have hmem := List.mem_append_left clauseWords hword
      obtain ⟨hpaired, hsingle, -⟩ := not_operator hreads hmem
      obtain ⟨hpaired', hsingle', -⟩ := not_operator ((htext.is_eq _).symm.trans hreads) hmem
      rw [peekOperator?_of_single rfl hpaired, peekOperator?_of_single rfl hpaired', hsingle,
        hsingle']
      exact hgives .none
  | clause hu hv hword hreads =>
      obtain ⟨hpaired, hsingle, -⟩ := not_operator hreads (List.mem_append_right closers hword)
      rw [peekOperator?_of_done rfl, peekOperator?_of_single rfl hpaired, hsingle]
      exact hgives .none
  | terminated hu hv hsemi =>
      obtain ⟨hpaired, hsingle, -⟩ := not_operator hsemi.2 (by decide)
      rw [peekOperator?_of_done rfl, peekOperator?_of_single rfl hpaired, hsingle]
      exact hgives .none

end OnePassSql.Parse
