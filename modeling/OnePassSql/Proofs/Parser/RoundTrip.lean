import OnePassSql.Expr.Written
import OnePassSql.Proofs.Parser.Chains

/-!
The canonical text of an expression is read as that expression. Each form is read back from its text
whatever stands behind it, as long as the text there does not belong to the expression as well.
-/

namespace OnePassSql

/-! ## The expressions that are read back -/

namespace Expr

/-- A negation. Its text is the negation of all that follows. -/
def isNegation : Expr → Bool
  | unary .negate _ => true
  | _ => false

/-- A form that stands behind its operand. -/
def isTrailing : Expr → Bool
  | unary .notNull _ | unary .isNull _ => true
  | _ => false

/-- The expressions whose canonical text says all about them. What a text cannot hold is left out. A
negation on the left of an operator is left out because it would cover the operator as well, and the
forms behind an operand are left out on its right because they would apply to both sides. -/
inductive Readable : Expr → Prop where
  | null : Readable (literal .null)
  | integer {n : Int64} : 0 ≤ n.toInt → Readable (literal (.integer n))
  | text {s : String} : '\'' ∉ s.toList → Readable (literal (.text s))
  | column {name : String} : (TokenStream.ofText name).toList = [⟨.word, name, 0⟩] →
      (∀ word ∈ ["COALESCE", "NULL", "NOT"], Text.sameWord name word = false) →
      Readable (column name)
  | unary {e : Expr} (op : UnaryOp) : Readable e → Readable (unary op e)
  | binary {l r : Expr} {op : BinaryOp} : op ≠ .div → Readable l → l.isNegation = false →
      Readable r → r.isTrailing = false → Readable (binary op l r)
  | coalesce {es : List Expr} : es ≠ [] → (∀ e ∈ es, Readable e) → Readable (call "COALESCE" es)

/-- There are no parameters in them. -/
theorem Readable.bind_eq {e : Expr} (h : e.Readable) (b : Bindings) : e.bind b = e := by
  induction h with
  | null => rfl
  | integer _ => rfl
  | text _ => rfl
  | column _ _ => rfl
  | unary op _ ih => rw [bind, ih]
  | binary _ _ _ _ _ ihl ihr => rw [bind, ihl, ihr]
  | coalesce _ _ ih => rw [bind, bindAll_eq_map, List.map_congr_left ih, List.map_id']

end Expr

namespace Parse

open Step

/-! ## Texts ahead -/

/-- The parser before a text that starts at the `n`-th character. -/
def before (n : Nat) (cs : List Char) : Parser := ⟨.cut n cs, 0, true⟩

/-- A number or a word ends before the text. -/
def EndsToken (cs : List Char) : Prop := ∀ c ∈ cs.head?, c ∈ [' ', '(', ')', ',']

/-- An expression ends before the text. -/
def EndsExpression (cs : List Char) : Prop := ∀ c ∈ cs.head?, c ∈ [')', ',']

section Texts

variable {n : Nat} {cs rest : List Char} {word : String} {op : BinaryOp}

theorem EndsExpression.endsToken (h : EndsExpression rest) : EndsToken rest := by
  intro c hc
  have hmem := h c hc
  simp only [List.mem_cons, List.not_mem_nil, or_false] at hmem ⊢
  exact .inr (.inr hmem)

theorem endsToken_blank (cs : List Char) : EndsToken (' ' :: cs) := by
  rintro _ ⟨⟩
  decide

theorem endsExpression_cons {c : Char} (hc : c ∈ [')', ',']) (rest : List Char) :
    EndsExpression (c :: rest) := by
  rintro _ ⟨⟩
  exact hc

theorem before_blank (n : Nat) (cs : List Char) : before n (' ' :: cs) = before (n + 1) cs := by
  rw [before, TokenStream.cut_of_blank (by decide)]
  rfl

theorem lexed_before (n : Nat) (cs : List Char) : Lexed (before n cs) :=
  InText.lexed ⟨n, cs, rfl⟩

/-- Numbers and words end where a token is meant to end. -/
theorem ahead_run {kind : TokenKind} (hkind : kind = .number ∨ kind = .word)
    (hreads : kind.Reads word.toList) (hrest : EndsToken rest) (n : Nat) :
    (before n (word.toList ++ rest)).ahead
      = .token ⟨kind, word, n⟩ (before (n + word.length) rest).ahead := by
  refine TokenStream.cut_of_reads hreads (fun c hc hlonger => ?_) n
  have hall : ([' ', '(', ')', ','].all fun c => !continuesWord c) = true := by decide
  have hstop := List.all_eq_true.mp hall c (hrest c hc)
  rw [continuesWord_of_reads hkind hlonger c (by simp)] at hstop
  cases hstop

/-- The words in the texts of expressions. -/
theorem ahead_keyword (word : String) (hword : word ∈ ["NULL", "NOT", "ISNULL", "COALESCE"])
    (hrest : EndsToken rest) (n : Nat) : (before n (word.toList ++ rest)).ahead
      = .token ⟨.word, word, n⟩ (before (n + word.length) rest).ahead := by
  refine ahead_run (.inr rfl) ?_ hrest n
  simp only [List.mem_cons, List.not_mem_nil, or_false] at hword
  rcases hword with rfl | rfl | rfl | rfl <;>
    exact ⟨_, _, rfl, by decide, List.all_eq_true.mp (by decide)⟩

theorem ahead_quoted {s : String} (hs : '\'' ∉ s.toList) (rest : List Char) (n : Nat) :
    (before n ('\'' :: (s.toList ++ '\'' :: rest))).ahead
      = .token ⟨.string, String.ofList ('\'' :: (s.toList ++ ['\''])), n⟩
          (before (n + 1 + (s.toList ++ ['\'']).length) rest).ahead := by
  refine TokenStream.cut_of_scanned ?_ n
  exact congrArg (fun found => some (TokenKind.string, found)) (spanQuoted_append_cons hs rest)

/-- A sign of one character is the next token. -/
theorem ahead_sign {c : Char} (hc : isPunctuation c = true) (n : Nat) (rest : List Char) :
    (before n (c :: rest)).ahead
      = .token ⟨.symbol, String.ofList [c], n⟩ (before (n + 1) rest).ahead := by
  have hscan : scan? c rest = some (.symbol, [], rest) := by
    unfold scan?
    exact if_pos hc
  exact TokenStream.cut_of_scanned hscan n

theorem expect_sign {c : Char} (hword : word = String.ofList [c]) (hc : isPunctuation c = true)
    (n : Nat) (rest : List Char) :
    expect word (before n (c :: rest)) = .ok () (before (n + 1) rest) := by
  refine expectOne_of_is (ahead_sign hc n rest) ?_ (meaning?_self word ())
  rw [hword]
  exact beq_self_eq_true _

theorem accept_sign {c : Char} (hword : word = String.ofList [c]) (hc : isPunctuation c = true)
    (n : Nat) (rest : List Char) :
    accept word (before n (c :: rest)) = .ok true (before (n + 1) rest) := by
  have his : Token.is ⟨.symbol, String.ofList [c], n⟩ word = true := by
    rw [hword]
    exact beq_self_eq_true _
  exact accept_of_is (ahead_sign hc n rest) his

theorem stops_before (h : EndsExpression rest) (n : Nat) : Stops (before n rest) := by
  cases rest with
  | nil =>
      have hdone : (before n []).ahead = .done n := TokenStream.cut_nil n
      exact ⟨peekOperator?_of_done hdone,
        fun _ => suffix?_of_acceptOne? (acceptOne?_of_done hdone _)⟩
  | cons c rest =>
      have hall : ([')', ','].all fun c => isPunctuation c &&
          (pairedSigns ⟨.word, String.ofList [c], 0⟩).isEmpty &&
          (meaning? singleSigns ⟨.word, String.ofList [c], 0⟩).isNone &&
          (meaning? [("NOT", Suffix.negated), ("NOTNULL", .notNull), ("ISNULL", .isNull),
            ("IN", .membership)] ⟨.word, String.ofList [c], 0⟩).isNone) = true := by
        decide
      have hnone := List.all_eq_true.mp hall c (h c rfl)
      simp only [Bool.and_eq_true, List.isEmpty_iff, Option.isNone_iff_eq_none] at hnone
      obtain ⟨⟨⟨hpunctuation, hpaired⟩, hsingle⟩, hsuffix⟩ := hnone
      have hahead := ahead_sign hpunctuation n rest
      exact ⟨peekOperator?_of_is hahead (beq_self_eq_true _) hpaired hsingle, fun _ =>
        suffix?_of_acceptOne? (acceptOne?_of_is hahead (beq_self_eq_true _) hsuffix)⟩

/-- A sign and a blank behind it. -/
theorem operator_of_scan? (kind : TokenKind) (first : Char) (more : List Char)
    (hscan : scan? first (more ++ ' ' :: rest) = some (kind, more, ' ' :: rest))
    (hsign : String.ofList (first :: more) ∈ op.signs) :
    ∃ m, Operator op (before n (first :: (more ++ ' ' :: rest))) (before m rest) := by
  refine ⟨n + 1 + more.length + 1, ?_⟩
  rw [← before_blank]
  exact .sign (TokenStream.cut_of_scanned hscan n) hsign (beq_self_eq_true _)

/-- Two signs side by side and a blank behind them. -/
theorem operator_of_scan?_pair (first second : Char)
    (hscan : scan? first (second :: ' ' :: rest) = some (.symbol, [], second :: ' ' :: rest))
    (hscan' : scan? second (' ' :: rest) = some (.symbol, [], ' ' :: rest))
    (hsigns : (String.ofList [first], String.ofList [second]) ∈ op.signPairs) :
    ∃ m, Operator op (before n (first :: second :: ' ' :: rest)) (before m rest) := by
  have hahead := TokenStream.cut_of_scanned hscan n
  rw [TokenStream.cut_of_scanned hscan'] at hahead
  refine ⟨n + 1 + 1 + 1, ?_⟩
  rw [← before_blank]
  exact .pair hahead (TokenStream.stop_cut n first [] .symbol).symm hsigns (beq_self_eq_true _)
    (beq_self_eq_true _)

/-- The sign of every operator but division is read as the operator. -/
theorem operator_symbol (hop : op ≠ .div) (n : Nat) (rest : List Char) :
    ∃ m, Operator op (before n (op.symbol.toList ++ ' ' :: rest)) (before m rest) := by
  cases op with
  | div => exact absurd rfl hop
  | concat => exact operator_of_scan?_pair '|' '|' rfl rfl (by decide)
  | shiftLeft => exact operator_of_scan?_pair '<' '<' rfl rfl (by decide)
  | shiftRight => exact operator_of_scan?_pair '>' '>' rfl rfl (by decide)
  | eq => exact operator_of_scan? .symbol '=' ['='] rfl (by decide)
  | ne => exact operator_of_scan? .symbol '!' ['='] rfl (by decide)
  | and => exact operator_of_scan? .word 'A' ['N', 'D'] rfl (by decide)
  | or => exact operator_of_scan? .word 'O' ['R'] rfl (by decide)
  | lt => exact operator_of_scan? .symbol '<' [] rfl (by decide)
  | le => exact operator_of_scan? .symbol '<' ['='] rfl (by decide)
  | gt => exact operator_of_scan? .symbol '>' [] rfl (by decide)
  | ge => exact operator_of_scan? .symbol '>' ['='] rfl (by decide)
  | add => exact operator_of_scan? .symbol '+' [] rfl (by decide)
  | sub => exact operator_of_scan? .symbol '-' [] rfl (by decide)
  | mul => exact operator_of_scan? .symbol '*' [] rfl (by decide)
  | mod => exact operator_of_scan? .symbol '%' [] rfl (by decide)

end Texts

/-! ## Reading back -/

/-- What stands behind the text of the expression does not belong to it. -/
def Fits (e : Expr) (rest : List Char) : Prop :=
  if e.isNegation = true then EndsExpression rest else EndsToken rest

/-- The expression is read from its text, whatever fits behind it: as an operand if it is one, and as
what an expression starts with. -/
structure ReadBack (e : Expr) : Prop where
  operand : e.isTrailing = false → ∀ n rest, Fits e rest →
    ∃ m, operand (before n (e.written.toList ++ rest)) = .ok e (before m rest)
  expression : ∀ n rest, Fits e rest →
    ∃ m, expression (before n (e.written.toList ++ rest)) = climb e 0 (before m rest)

section Reading

variable {e l r : Expr} {es : List Expr} {op : BinaryOp} {n m : Nat} {cs rest : List Char}

theorem EndsExpression.fits (h : EndsExpression rest) (e : Expr) : Fits e rest := by
  unfold Fits
  split
  · exact h
  · exact h.endsToken

theorem Fits.endsToken (h : Fits e rest) : EndsToken rest := by
  unfold Fits at h
  split at h
  · exact h.endsToken
  · exact h

theorem fits_of_endsToken (h : EndsToken rest) (he : e.isNegation = false) : Fits e rest := by
  rwa [Fits, if_neg (by simp [he])]

/-- Where an expression ends, it is read whole. -/
theorem ReadBack.whole (h : ReadBack e) (hrest : EndsExpression rest) (n : Nat) :
    ∃ m, Parse.expression (before n (e.written.toList ++ rest)) = .ok e (before m rest) := by
  obtain ⟨m, hm⟩ := h.expression n rest (hrest.fits e)
  exact ⟨m, hm.trans (climb_of_stops (stops_before hrest m) e 0)⟩

theorem expression_of_operand (h : Parse.operand (before n cs) = .ok e (before m rest)) :
    Parse.expression (before n cs) = climb e 0 (before m rest) := by
  rw [expression_apply, bind_apply_ok h]

theorem readBack_of_operand
    (h : ∀ n rest, Fits e rest →
      ∃ m, Parse.operand (before n (e.written.toList ++ rest)) = .ok e (before m rest)) :
    ReadBack e where
  operand _ := h
  expression n rest hrest := by
    obtain ⟨m, hm⟩ := h n rest hrest
    exact ⟨m, expression_of_operand hm⟩

/-! ### Operands of one token -/

theorem readBack_null : ReadBack (.literal .null) := by
  refine readBack_of_operand fun n rest hrest => ⟨n + 4, ?_⟩
  exact operand_of_null (ahead_keyword "NULL" (by decide) hrest n) (beq_self_eq_true _)

theorem readBack_integer {k : Int64} (hk : 0 ≤ k.toInt) : ReadBack (.literal (.integer k)) := by
  refine readBack_of_operand fun n rest hrest => ⟨n + (toString k.toInt).length, ?_⟩
  have hreads : TokenKind.number.Reads (toString k.toInt).toList := by
    rw [toList_toString_of_nonneg hk]
    exact ⟨Nat.toDigits_ne_nil, isDigit_toDigits _⟩
  have hahead := ahead_run (.inl rfl) hreads hrest n
  have hoperand := operand_of_kind (lexed_before n _) hahead (.inl rfl)
  rw [atom] at hoperand
  dsimp only at hoperand
  rw [integerOfText?_toString] at hoperand
  exact hoperand

theorem unquoted_of_quotes (s : String) (n : Nat) :
    Token.unquoted ⟨.string, String.ofList ('\'' :: (s.toList ++ ['\''])), n⟩ = s := by
  simp [Token.unquoted, Token.dropQuotes]

theorem readBack_text {s : String} (hs : '\'' ∉ s.toList) : ReadBack (.literal (.text s)) := by
  refine readBack_of_operand fun n rest hrest => ⟨n + 1 + (s.toList ++ ['\'']).length, ?_⟩
  have htext : (Expr.literal (.text s)).written.toList ++ rest
      = '\'' :: (s.toList ++ '\'' :: rest) := by
    simp [Expr.written]
  rw [htext, operand_of_kind (lexed_before n _) (ahead_quoted hs rest n) (.inr (.inl rfl)), atom]
  dsimp only
  rw [unquoted_of_quotes]
  rfl

theorem readBack_column {name : String}
    (hname : (TokenStream.ofText name).toList = [⟨.word, name, 0⟩])
    (hwords : ∀ word ∈ ["COALESCE", "NULL", "NOT"], Text.sameWord name word = false) :
    ReadBack (.column name) := by
  refine readBack_of_operand fun n rest hrest => ⟨n + name.length, ?_⟩
  have hreads : TokenKind.word.Reads name.toList := by
    have hlexed : Lexed (Parser.ofText name) := InText.lexed ⟨0, _, rfl⟩
    exact hlexed ⟨.word, name, 0⟩ (by rw [Parser.ofText, hname]; exact List.mem_cons_self)
  exact operand_of_word (lexed_before n _) (ahead_run (.inr rfl) hreads hrest n) rfl hwords

/-! ### Operands of several parts -/

/-- An expression in parentheses is an operand. -/
theorem operand_of_enclosed
    (h : Parse.expression (before (n + 1) cs) = .ok e (before m (')' :: rest))) :
    Parse.operand (before n ('(' :: cs)) = .ok e (before (m + 1) rest) := by
  have hinside : withSuffixes true Parse.expression (before (n + 1) cs)
      = .ok e (before m (')' :: rest)) := by
    have hon : { before (n + 1) cs with suffixes := true } = before (n + 1) cs := rfl
    rw [withSuffixes, hon, h]
    rfl
  rw [operand_of_parenthesis (ahead_sign rfl n cs) (beq_self_eq_true _)]
  refine (bind_apply_ok hinside _).trans ?_
  rw [bind_apply_ok (expect_sign rfl rfl m rest)]
  rfl

theorem ReadBack.enclosed (h : ReadBack e) (n : Nat) (rest : List Char) :
    ∃ m, Parse.operand (before n ('(' :: (e.written.toList ++ ')' :: rest)))
      = .ok e (before m rest) := by
  obtain ⟨m, hm⟩ := h.whole (endsExpression_cons (c := ')') (by decide) rest) (n + 1)
  exact ⟨m + 1, operand_of_enclosed hm⟩

theorem readBack_not (h : ReadBack e) : ReadBack (.unary .not e) := by
  refine readBack_of_operand fun n rest hrest => ?_
  have htext : (Expr.unary .not e).written.toList ++ rest
      = "NOT".toList ++ ' ' :: '(' :: (e.written.toList ++ ')' :: rest) := by
    simp [Expr.written]
  have hnot := ahead_keyword "NOT" (by decide)
    (endsToken_blank ('(' :: (e.written.toList ++ ')' :: rest))) n
  obtain ⟨m, hm⟩ := h.enclosed (n + 3 + 1) rest
  rw [← before_blank] at hm
  refine ⟨m, ?_⟩
  rw [htext, operand_of_not hnot (beq_self_eq_true _)]
  exact bind_apply_ok hm _

theorem readBack_negate (h : ReadBack e) : ReadBack (.unary .negate e) := by
  refine readBack_of_operand fun n rest hrest => ?_
  have htext : (Expr.unary .negate e).written.toList ++ rest
      = '-' :: '(' :: (e.written.toList ++ ')' :: rest) := by
    simp [Expr.written]
  obtain ⟨m, hm⟩ := h.enclosed (n + 1) rest
  have hinside := (expression_of_operand hm).trans (climb_of_stops (stops_before hrest m) e 0)
  -- a parenthesis is no number, so the minus is not the sign of the least integer
  have hleast : ∀ t behind, (before (n + 1) ('(' :: (e.written.toList ++ ')' :: rest))).ahead
      = .token t behind → ¬SpellsLeast ⟨.symbol, String.ofList ['-'], n⟩ t := by
    intro t behind ht
    rw [ahead_sign rfl] at ht
    cases ht
    have hopen : Token.is ⟨.symbol, String.ofList ['('], n + 1⟩ "(" = true := beq_self_eq_true _
    exact not_spellsLeast hopen (by decide)
  refine ⟨m, ?_⟩
  rw [htext, operand_of_minus (ahead_sign rfl n _) (beq_self_eq_true _) hleast]
  exact bind_apply_ok hinside _

theorem climb_notNull (hrest : EndsToken rest) (e : Expr) (n : Nat) :
    ∃ m, climb e 0 (before n ("NOT".toList ++ ' ' :: ("NULL".toList ++ rest)))
      = climb (.unary .notNull e) 0 (before m rest) := by
  have hnot := ahead_keyword "NOT" (by decide) (endsToken_blank ("NULL".toList ++ rest)) n
  have hisNot : Token.is ⟨.word, "NOT", n⟩ "NOT" = true := beq_self_eq_true _
  have hisNull : Token.is ⟨.word, "NULL", n + 3 + 1⟩ "NULL" = true := beq_self_eq_true _
  have hnull : expectOne [("NULL", true), ("IN", false)]
      (before (n + 3 + 1) ("NULL".toList ++ rest)) = .ok true (before (n + 3 + 1 + 4) rest) :=
    expectOne_of_is (ahead_keyword "NULL" (by decide) hrest _) hisNull rfl
  rw [← before_blank] at hnull
  refine ⟨n + 3 + 1 + 4, climb_of_suffix ?_ rfl ?_ 0⟩
  · exact peekOperator?_of_is hnot hisNot (by decide) (by decide)
  · rw [suffix?, bind_apply_ok (acceptOne?_eq_some_of_is hnot hisNot rfl)]
    exact bind_apply_ok hnull _

theorem climb_isNull (hrest : EndsToken rest) (e : Expr) (n : Nat) :
    ∃ m, climb e 0 (before n ("ISNULL".toList ++ rest))
      = climb (.unary .isNull e) 0 (before m rest) := by
  have hisNull := ahead_keyword "ISNULL" (by decide) hrest n
  have his : Token.is ⟨.word, "ISNULL", n⟩ "ISNULL" = true := beq_self_eq_true _
  refine ⟨n + 6, climb_of_suffix ?_ rfl ?_ 0⟩
  · exact peekOperator?_of_is hisNull his (by decide) (by decide)
  · rw [suffix?, bind_apply_ok (acceptOne?_eq_some_of_is hisNull his rfl)]
    rfl

/-- A form behind an expression in parentheses. -/
theorem readBack_trailing {op : UnaryOp} {form : List Char}
    (htrailing : (Expr.unary op e).isTrailing = true)
    (htext : (Expr.unary op e).written.toList = '(' :: (e.written.toList ++ ')' :: ' ' :: form))
    (hform : ∀ n rest, EndsToken rest → ∃ m, climb e 0 (before n (form ++ rest))
      = climb (.unary op e) 0 (before m rest)) (h : ReadBack e) : ReadBack (.unary op e) where
  operand hnot := by
    rw [htrailing] at hnot
    cases hnot
  expression n rest hrest := by
    -- the operand ends with the parenthesis; it is the climb that takes the form behind it
    obtain ⟨m, hm⟩ := h.enclosed n (' ' :: (form ++ rest))
    obtain ⟨k, hk⟩ := hform (m + 1) rest hrest.endsToken
    rw [← before_blank] at hk
    refine ⟨k, ?_⟩
    rw [htext, List.cons_append, List.append_assoc, List.cons_append, List.cons_append]
    exact (expression_of_operand hm).trans hk

theorem readBack_notNull (h : ReadBack e) : ReadBack (.unary .notNull e) := by
  have htext : (Expr.unary .notNull e).written.toList
      = '(' :: (e.written.toList ++ ')' :: ' ' :: ("NOT".toList ++ ' ' :: "NULL".toList)) := by
    simp [Expr.written]
  refine readBack_trailing rfl htext (fun n rest hrest => ?_) h
  rw [List.append_assoc, List.cons_append]
  exact climb_notNull hrest e n

theorem readBack_isNull (h : ReadBack e) : ReadBack (.unary .isNull e) := by
  have htext : (Expr.unary .isNull e).written.toList
      = '(' :: (e.written.toList ++ ')' :: ' ' :: "ISNULL".toList) := by
    simp [Expr.written]
  exact readBack_trailing rfl htext (fun n rest hrest => climb_isNull hrest e n) h

/-- From the left side the expression is climbed over the operator to the right side. -/
theorem climb_binary {op : BinaryOp} (hop : op ≠ .div) (hr : ReadBack r)
    (hright : r.isTrailing = false) (hrest : EndsExpression rest) (l : Expr) (n : Nat) :
    ∃ m, climb l 0 (before n (' ' :: (op.symbol.toList ++ ' ' :: (r.written.toList ++ rest))))
      = .ok (.binary op l r) (before m rest) := by
  obtain ⟨k, hsign⟩ := operator_symbol hop (n + 1) (r.written.toList ++ rest)
  obtain ⟨m, hm⟩ := hr.operand hright k rest (hrest.fits r)
  have hstops := stops_before hrest m
  obtain ⟨hpeek, -⟩ :=
    peekOperator?_of_operator hsign (startsOperand_of_operand (lexed_before _ _) hm)
  refine ⟨m, ?_⟩
  rw [before_blank, climb_of_le hpeek (Nat.zero_le _)]
  refine (bind_apply_ok hm _).trans ?_
  -- the expression ends behind the right side, so nothing tightens it
  rw [bind_apply_ok (tighten_of_none hstops.1)]
  exact climb_of_stops hstops _ 0

theorem readBack_binary {op : BinaryOp} (hop : op ≠ .div) (hl : ReadBack l)
    (hleft : l.isNegation = false) (hr : ReadBack r) (hright : r.isTrailing = false) :
    ReadBack (.binary op l r) := by
  refine readBack_of_operand fun n rest _ => ?_
  have htext : (Expr.binary op l r).written.toList ++ rest
      = '(' :: (l.written.toList ++ ' ' :: (op.symbol.toList ++ ' ' :: (r.written.toList
        ++ ')' :: rest))) := by
    simp [Expr.written]
  have hends : EndsExpression (')' :: rest) := endsExpression_cons (by decide) rest
  obtain ⟨k, hk⟩ := hl.expression (n + 1) (' ' :: (op.symbol.toList ++ ' ' :: (r.written.toList
    ++ ')' :: rest))) (fits_of_endsToken (endsToken_blank _) hleft)
  obtain ⟨m, hm⟩ := climb_binary hop hr hright hends l k
  refine ⟨m + 1, ?_⟩
  rw [htext]
  exact operand_of_enclosed (hk.trans hm)

/-! ### Calls -/

theorem arguments_of_written (hne : es ≠ []) (h : ∀ e ∈ es, ReadBack e) (n : Nat)
    (rest : List Char) :
    ∃ m, arguments (before n ((Expr.writtenAll es).toList ++ ')' :: rest))
      = .ok es (before m (')' :: rest)) := by
  induction es generalizing n with
  | nil => exact absurd rfl hne
  | cons e es ih =>
      obtain ⟨he, hes⟩ := List.forall_mem_cons.mp h
      cases es with
      | nil =>
          obtain ⟨m, hm⟩ := he.whole (endsExpression_cons (c := ')') (by decide) rest) n
          have hmore : accept "," (before m (')' :: rest)) = .ok false (before m (')' :: rest)) :=
            accept_of_not_is (ahead_sign rfl m rest)
              (show Text.sameWord (String.ofList [')']) "," = false by decide)
          refine ⟨m, ?_⟩
          rw [arguments_apply, Expr.writtenAll, bind_apply_ok hm, bind_apply_ok hmore]
          rfl
      | cons e' es =>
          have htext : (Expr.writtenAll (e :: e' :: es)).toList ++ ')' :: rest
              = e.written.toList ++ ',' :: ' ' :: ((Expr.writtenAll (e' :: es)).toList
                ++ ')' :: rest) := by
            simp [Expr.writtenAll]
          obtain ⟨k, hk⟩ := he.whole (endsExpression_cons (c := ',') (by decide)
            (' ' :: ((Expr.writtenAll (e' :: es)).toList ++ ')' :: rest))) n
          have hmore (cs : List Char) : accept "," (before k (',' :: cs))
              = .ok true (before (k + 1) cs) := accept_sign rfl rfl k cs
          obtain ⟨m, hm⟩ := ih (List.cons_ne_nil e' es) hes (k + 1 + 1)
          refine ⟨m, ?_⟩
          rw [htext, arguments_apply, bind_apply_ok hk, bind_apply_ok (hmore _), before_blank]
          exact bind_apply_ok hm _

theorem readBack_coalesce (hne : es ≠ []) (h : ∀ e ∈ es, ReadBack e) :
    ReadBack (.call "COALESCE" es) := by
  refine readBack_of_operand fun n rest _ => ?_
  have htext : (Expr.call "COALESCE" es).written.toList ++ rest
      = "COALESCE".toList ++ '(' :: ((Expr.writtenAll es).toList ++ ')' :: rest) := by
    simp [Expr.written]
  have hparenthesis : EndsToken ('(' :: ((Expr.writtenAll es).toList ++ ')' :: rest)) := by
    rintro _ ⟨⟩
    decide
  have hword := ahead_keyword "COALESCE" (by decide) hparenthesis n
  obtain ⟨m, hm⟩ := arguments_of_written hne h (n + 8 + 1) rest
  refine ⟨m + 1, ?_⟩
  rw [htext, operand_of_coalesce hword (beq_self_eq_true _)]
  refine (bind_apply_ok (expect_sign rfl rfl (n + 8) _) _).trans ?_
  rw [bind_apply_ok hm, bind_apply_ok (expect_sign rfl rfl m rest)]
  rfl

end Reading

/-- Every expression that its text says all about is read back from it. -/
theorem readBack_of_readable {e : Expr} (h : e.Readable) : ReadBack e := by
  induction h with
  | null => exact readBack_null
  | integer hn => exact readBack_integer hn
  | text hs => exact readBack_text hs
  | column hname hwords => exact readBack_column hname hwords
  | unary op _ ih =>
      cases op with
      | not => exact readBack_not ih
      | negate => exact readBack_negate ih
      | notNull => exact readBack_notNull ih
      | isNull => exact readBack_isNull ih
  | binary hop _ hleft _ hright ihl ihr => exact readBack_binary hop ihl hleft ihr hright
  | coalesce hne _ ih => exact readBack_coalesce hne ih

/-- The canonical text of an expression is read as that expression, up to the end of the text. -/
theorem boundExpression_of_written (b : Bindings) {e : Expr} (h : e.Readable) :
    boundExpression b (Parser.ofText e.written) = .ok e ⟨.done e.written.length, 0, true⟩ := by
  have hends : EndsExpression [] := by rintro _ ⟨⟩
  obtain ⟨m, hm⟩ := (readBack_of_readable h).whole hends 0
  rw [List.append_nil] at hm
  have hlength : m = e.written.length := by
    -- no token is left out on the way, and the tokens end where the text does
    have hmoves : TokenStream.LeadsTo _ _ := movesOn_expression.ok hm
    have hending : (TokenStream.cut 0 e.written.toList).ending = .done m := by
      refine hmoves.ending_eq.trans ?_
      rw [before, TokenStream.cut_nil]
      rfl
    rw [TokenStream.eq_of_ending_cut hending, Nat.zero_add, String.length_toList]
  rw [boundExpression]
  refine (bind_apply_ok hm _).trans ?_
  rw [h.bind_eq, pure_apply, before, TokenStream.cut_nil, hlength]

/-- The text `(COALESCE(a, 'x') == -((7) ISNULL))`. -/
theorem boundExpression_of_written_call :
    ∃ e : Expr, e = .binary .eq (.call "COALESCE" [.column "a", .literal (.text "x")])
        (.unary .negate (.unary .isNull (.literal (.integer 7)))) ∧ e.Readable ∧
      boundExpression .empty (Parser.ofText "(COALESCE(a, 'x') == -((7) ISNULL))")
        = .ok e ⟨.done 35, 0, true⟩ := by
  have hword : TokenKind.word.Reads "a".toList := ⟨'a', [], rfl, by decide, by simp⟩
  have hname : (TokenStream.ofText "a").toList = [⟨.word, "a", 0⟩] := by
    rw [TokenStream.ofText_of_reads hword]
    rfl
  have hcolumn : Expr.Readable (.column "a") := .column hname (by decide)
  have htext : Expr.Readable (.literal (.text "x")) := .text (by decide)
  have hinteger : Expr.Readable (.literal (.integer 7)) := .integer (by decide)
  have hcall : Expr.Readable (.call "COALESCE" [.column "a", .literal (.text "x")]) :=
    .coalesce (List.cons_ne_nil _ _)
      (List.forall_mem_cons.mpr ⟨hcolumn, List.forall_mem_singleton.mpr htext⟩)
  have heq : BinaryOp.eq ≠ .div := by decide
  have hread := Expr.Readable.binary heq hcall rfl (.unary .negate (.unary .isNull hinteger)) rfl
  have hrun := boundExpression_of_written .empty hread
  have hwritten : (Expr.binary .eq (.call "COALESCE" [.column "a", .literal (.text "x")])
      (.unary .negate (.unary .isNull (.literal (.integer 7))))).written
        = "(COALESCE(a, 'x') == -((7) ISNULL))" := by decide
  have hlength : "(COALESCE(a, 'x') == -((7) ISNULL))".length = 35 := by decide
  rw [hwritten, hlength] at hrun
  exact ⟨_, rfl, hread, hrun⟩

end Parse

end OnePassSql
