import OnePassSql.Proofs.Parser.Equations
import OnePassSql.Proofs.Token.Tokenisation
import OnePassSql.Proofs.Value.Digits

/-!
Chains of operands and operators in a text: what their tokens are, and that the parser reads each
operand and sees each operator as it stands there.
-/

namespace OnePassSql

/-! ## Chains in a text -/

/-- The signs of one token that the operator can be written with. Division cannot be written: its
sign starts no token. -/
def BinaryOp.signs : BinaryOp → List String
  | eq => ["=", "=="]
  | ne => ["!="]
  | and => ["AND"]
  | or => ["OR"]
  | lt => ["<"]
  | le => ["<="]
  | gt => [">"]
  | ge => [">="]
  | add => ["+"]
  | sub => ["-"]
  | mul => ["*"]
  | mod => ["%"]
  | concat | div | shiftLeft | shiftRight => []

/-- The signs of two tokens side by side that the operator can be written with. -/
def BinaryOp.signPairs : BinaryOp → List (String × String)
  | concat => [("|", "|")]
  | ne => [("<", ">")]
  | shiftLeft => [("<", "<")]
  | shiftRight => [(">", ">")]
  | _ => []

/-- So many NOTs before the expression. -/
def Expr.negated : Nat → Expr → Expr
  | 0, e => e
  | n + 1, e => .unary .not (negated n e)

namespace Parse

/-- From the first state the operator leads to the second. -/
inductive Operator (op : BinaryOp) : Parser → Parser → Prop where
  | sign {p : Parser} {t : Token} {rest : TokenStream} {sign : String} :
      p.ahead = .token t rest → sign ∈ op.signs → t.is sign = true →
      Operator op p { p with ahead := rest }
  | pair {p : Parser} {t u : Token} {rest : TokenStream} {sign sign' : String} :
      p.ahead = .token t (.token u rest) → u.position = t.stop → (sign, sign') ∈ op.signPairs →
      t.is sign = true → u.is sign' = true → Operator op p { p with ahead := rest }

/-- From the first state so many NOTs lead to the second. -/
inductive Nots : Parser → Nat → Parser → Prop where
  | none (p : Parser) : Nots p 0 p
  | not {p q : Parser} {t : Token} {rest : TokenStream} {n : Nat} :
      p.ahead = .token t rest → t.is "NOT" = true → Nots { p with ahead := rest } n q →
      Nots p (n + 1) q

/-- From the first state a name, a number, a text or an expression in parentheses leads to the
second; and what it is once the bound values are in it. -/
inductive Atom (b : Bindings) : Parser → Expr → Parser → Prop where
  | name {p : Parser} {t : Token} {rest : TokenStream} :
      p.ahead = .token t rest → t.kind = .word →
      (∀ word ∈ ["COALESCE", "NULL", "NOT"], t.is word = false) →
      Atom b p (.column t.text) { p with ahead := rest }
  | quotedName {p : Parser} {t : Token} {rest : TokenStream} :
      p.ahead = .token t rest → t.kind = .quotedName →
      Atom b p (.column t.unquoted) { p with ahead := rest }
  | number {p : Parser} {t : Token} {rest : TokenStream} :
      p.ahead = .token t rest → t.kind = .number →
      Binary64.digitsValue t.text.toList < Nat.pow 2 63 →
      Atom b p (.literal (.integer (Int64.ofNat (Binary64.digitsValue t.text.toList))))
        { p with ahead := rest }
  | text {p : Parser} {t : Token} {rest : TokenStream} :
      p.ahead = .token t rest → t.kind = .string →
      Atom b p (.literal (.text t.unquoted)) { p with ahead := rest }
  | parenthesis {p q : Parser} {t u : Token} {rest behind : TokenStream} {e : Expr} :
      p.ahead = .token t rest → t.is "(" = true →
      boundExpression b { p with ahead := rest, suffixes := true } = .ok e q →
      q.ahead = .token u behind → u.is ")" = true →
      Atom b p e { q with ahead := behind, suffixes := p.suffixes }

/-- From the first state operands, each with an operator behind it, lead to the second. -/
inductive Links (b : Bindings) : Parser → List (Expr × BinaryOp) → Parser → Prop where
  | nil (p : Parser) : Links b p [] p
  | cons {p p₁ p₂ p₃ q : Parser} {n : Nat} {e : Expr} {op : BinaryOp}
      {links : List (Expr × BinaryOp)} :
      Nots p n p₁ → Atom b p₁ e p₂ → Operator op p₂ p₃ → Links b p₃ links q →
      Links b p ((e.negated n, op) :: links) q

/-- What ends a chain: the end of the text, or a token that is no operator and none of the words
that can stand behind an operand. -/
def EndsChain (p : Parser) : Prop :=
  (∃ n, p.ahead = .done n) ∨ ∃ t rest, p.ahead = .token t rest ∧
    (∀ op q, ¬Operator op p q) ∧ ∀ word ∈ ["NOT", "NOTNULL", "ISNULL", "IN"], t.is word = false

/-- A bar is next, and behind it a character that no token starts with. -/
def AtBrokenBar (p : Parser) : Prop :=
  ∃ bar ch n, p.ahead = .token bar (.fault ch n) ∧ bar.is "|" = true

/-- The parser is in a text. -/
def InText (p : Parser) : Prop := ∃ n cs, p.ahead = TokenStream.cut n cs

open Step

/-! ## Tokens of a text -/

/-- The tokens ahead are of their classes. -/
def Lexed (p : Parser) : Prop := ∀ t ∈ p.ahead.toList, t.kind.Reads t.text.toList

section Tokens

variable {b : Bindings} {p q : Parser} {t u : Token} {rest : TokenStream} {op : BinaryOp} {e : Expr}

theorem InText.lexed (h : InText p) : Lexed p := by
  obtain ⟨n, cs, hcut⟩ := h
  intro t ht
  rw [hcut] at ht
  exact ((TokenStream.standsIn_of_mem_cut ht).2 (List.replicate n ' ')
    List.length_replicate).reads

theorem Lexed.of_leadsTo (h : Lexed p) (hq : p.ahead.LeadsTo q.ahead) : Lexed q :=
  fun t ht => h t (hq.mem ht)

theorem Lexed.reads (h : Lexed p) (hp : p.ahead = .token t rest) : t.kind.Reads t.text.toList :=
  h t (hp ▸ List.mem_cons_self)

/-- A token is none of the words that its class does not start like. -/
theorem Lexed.not_is (h : Lexed p) (hp : p.ahead = .token t rest) {word : String} {c : Char}
    {more : List Char} (hword : word.toList = c :: more) (hc : t.kind.startsWith c = false) :
    t.is word = false := by
  cases his : t.is word with
  | false => rfl
  | true =>
      rw [TokenKind.startsWith_of_is (h.reads hp) his hword] at hc
      cases hc

/-! ## Operators -/

theorem meaning?_singleSigns (sign : String) (hsign : sign ∈ op.signs) (his : t.is sign = true) :
    meaning? singleSigns t = some op := by
  rw [meaning?_of_is his]
  cases op <;> simp only [BinaryOp.signs, List.mem_cons, List.not_mem_nil, or_false] at hsign
  case eq => rcases hsign with rfl | rfl <;> decide
  all_goals subst hsign; decide

theorem exists_sign_of_meaning? (hp : Lexed p) (hahead : p.ahead = .token t rest)
    (h : meaning? singleSigns t = some op) : ∃ sign ∈ op.signs, t.is sign = true := by
  obtain ⟨sign, hmem, his⟩ := exists_of_meaning? h
  have hall : ∀ entry ∈ singleSigns, entry.1 = "/" ∨ entry.1 ∈ entry.2.signs := by decide
  rcases hall _ hmem with rfl | hsign
  · have hslash : t.kind.startsWith '/' = false := by cases t.kind <;> decide
    rw [hp.not_is hahead rfl hslash] at his
    cases his
  · exact ⟨sign, hsign, his⟩

/-- The first signs of two, or of operators that they are in one with. -/
def pairStarts : List String := ["<", ">", "|"]

theorem pairedSigns_eq_nil (h : ∀ sign ∈ pairStarts, t.is sign = false) : pairedSigns t = [] := by
  simp only [pairStarts, List.forall_mem_cons] at h
  obtain ⟨hlt, hgt, hbar, -⟩ := h
  simp [pairedSigns, hlt, hgt, hbar]

/-- Only a pair of signs is an operator of two tokens. -/
theorem exists_signPair_of_paired? (h : paired? t u = some op) :
    u.position = t.stop ∧ ∃ sign sign', (sign, sign') ∈ op.signPairs ∧ t.is sign = true ∧
      u.is sign' = true := by
  unfold paired? at h
  split at h
  next hadjoins =>
    refine ⟨hadjoins, ?_⟩
    obtain ⟨sign', hmem, his'⟩ := exists_of_meaning? h
    unfold pairedSigns at hmem
    split at hmem
    next his =>
      simp only [List.mem_cons, List.not_mem_nil, or_false, Prod.mk.injEq] at hmem
      rcases hmem with ⟨rfl, rfl⟩ | ⟨rfl, rfl⟩
      · exact ⟨"<", "<", by decide, his, his'⟩
      · exact ⟨"<", ">", by decide, his, his'⟩
    split at hmem
    next his =>
      simp only [List.mem_cons, List.not_mem_nil, or_false, Prod.mk.injEq] at hmem
      obtain ⟨rfl, rfl⟩ := hmem
      exact ⟨">", ">", by decide, his, his'⟩
    split at hmem
    next his =>
      simp only [List.mem_cons, List.not_mem_nil, or_false, Prod.mk.injEq] at hmem
      obtain ⟨rfl, rfl⟩ := hmem
      exact ⟨"|", "|", by decide, his, his'⟩
    next => cases hmem
  next => cases h

theorem paired?_of_signPair {sign sign' : String} (hadjoins : u.position = t.stop)
    (hmem : (sign, sign') ∈ op.signPairs) (his : t.is sign = true) (his' : u.is sign' = true) :
    paired? t u = some op := by
  rw [paired?, if_pos hadjoins, pairedSigns_of_is his, meaning?_of_is his']
  cases op <;> simp only [BinaryOp.signPairs, List.mem_cons, List.not_mem_nil, or_false,
    Prod.mk.injEq] at hmem <;> obtain ⟨rfl, rfl⟩ := hmem <;> decide

/-- A token that no operator goes on with stands behind the operator. -/
def StartsOperand (p : Parser) : Prop :=
  ∃ t rest, p.ahead = .token t rest ∧ ∀ sign ∈ pairStarts, t.is sign = false

/-- Before an operand the operators of the text are those that the parser sees. -/
theorem peekOperator?_of_operator (h : Operator op p q) (hq : StartsOperand q) :
    peekOperator? p = .ok (some (op, q.ahead)) p ∧ q = { p with ahead := q.ahead } := by
  cases h with
  | @sign t rest sign hahead hsign his =>
      refine ⟨?_, rfl⟩
      obtain ⟨u, behind, hbehind, hnot⟩ := hq
      have hpaired : paired? t u = none := by
        cases hpair : paired? t u with
        | none => rfl
        | some op' =>
            obtain ⟨-, sign, sign', hmem, -, his'⟩ := exists_signPair_of_paired? hpair
            have hstart : sign' ∈ pairStarts := by
              have hall : ∀ op : BinaryOp, ∀ pair ∈ op.signPairs, pair.2 ∈ pairStarts := by
                intro op
                cases op <;> decide
              exact hall op' _ hmem
            rw [hnot sign' hstart] at his'
            cases his'
      rw [peekOperator?_of_peek hahead (peek_of_token hbehind), operatorOf, Option.bind_some,
        hpaired, meaning?_singleSigns sign hsign his]
      rfl
  | @pair t u rest sign sign' hahead hadjoins hmem his his' =>
      refine ⟨?_, rfl⟩
      rw [peekOperator?_of_peek hahead (peek_of_token rfl), operatorOf, Option.bind_some,
        paired?_of_signPair hadjoins hmem his his']
      rfl

/-- What ends a chain stops the parser, but for a bar before a character that no token starts with.
-/
theorem stops_of_endsChain (hp : Lexed p) (h : EndsChain p) (hbar : ¬AtBrokenBar p) : Stops p := by
  rcases h with ⟨n, hdone⟩ | ⟨t, rest, hahead, hnot, hwords⟩
  · exact ⟨peekOperator?_of_done hdone, fun _ => suffix?_of_acceptOne? (acceptOne?_of_done hdone _)⟩
  · have hsign : meaning? singleSigns t = none := by
      cases hmeaning : meaning? singleSigns t with
      | none => rfl
      | some op =>
          obtain ⟨sign, hsign, his⟩ := exists_sign_of_meaning? hp hahead hmeaning
          exact absurd (.sign hahead hsign his) (hnot op _)
    constructor
    · cases rest with
      | token u behind =>
          have hpaired : paired? t u = none := by
            cases hpair : paired? t u with
            | none => rfl
            | some op =>
                obtain ⟨hadjoins, sign, sign', hmem, his, his'⟩ := exists_signPair_of_paired? hpair
                exact absurd (.pair hahead hadjoins hmem his his') (hnot op _)
          rw [peekOperator?_of_peek hahead (peek_of_token rfl), operatorOf, Option.bind_some,
            hpaired, hsign]
          rfl
      | done n =>
          rw [peekOperator?_of_peek hahead (peek_of_done rfl), operatorOf, Option.bind_none, hsign]
          rfl
      | fault ch n =>
          have hsingle : pairedSigns t = [] := by
            apply pairedSigns_eq_nil
            intro sign hmem
            cases his : t.is sign with
            | false => rfl
            | true =>
                simp only [pairStarts, List.mem_cons, List.not_mem_nil, or_false] at hmem
                rcases hmem with rfl | rfl | rfl
                · exact absurd (.sign hahead (by decide) his) (hnot .lt _)
                · exact absurd (.sign hahead (by decide) his) (hnot .gt _)
                · exact absurd ⟨t, ch, n, hahead, his⟩ hbar
          rw [peekOperator?_of_single hahead hsingle, hsign]
          rfl
    · intro _
      have hnone : meaning? [("NOT", Suffix.negated), ("NOTNULL", .notNull), ("ISNULL", .isNull),
          ("IN", .membership)] t = none := by
        simp only [List.forall_mem_cons] at hwords
        obtain ⟨hnot, hnotNull, hisNull, hin, -⟩ := hwords
        simp [meaning?, hnot, hnotNull, hisNull, hin]
      exact suffix?_of_acceptOne? (by rw [acceptOne?_of_token hahead, hnone])

theorem peekOperator?_of_brokenBar {ch : Char} {n : Nat} (hahead : p.ahead = .token t (.fault ch n))
    (his : t.is "|" = true) :
    peekOperator? p = .error (.lexical ch n) { p with ahead := .fault ch n } := by
  have hpaired : ¬(pairedSigns t).isEmpty = true := by
    rw [pairedSigns_of_is his]
    decide
  rw [peekOperator?, bind_apply_ok (peek_of_token hahead)]
  dsimp only
  rw [bind_apply_ok (get_apply p), if_neg hpaired, bind_apply_ok (skip_of_token hahead)]
  exact bind_eq_error.mpr (.inl (peek_of_fault rfl))

/-! ## Operands -/

theorem operand_of_nots {n : Nat} (h : Nots p n q) :
    (∀ e r, operand q = .ok e r → operand p = .ok (e.negated n) r) ∧
      ∀ f r, operand q = .error f r → operand p = .error f r := by
  induction h with
  | none p => exact ⟨fun _ _ h => h, fun _ _ h => h⟩
  | not hahead his _ ih =>
      obtain ⟨hok, herror⟩ := ih
      rw [operand_of_not hahead his]
      constructor
      · intro e r h
        rw [bind_apply_ok (hok e r h)]
        rfl
      · intro f r h
        exact bind_eq_error.mpr (.inl (herror f r h))

theorem Expr.bind_negated (n : Nat) (e : Expr) : (e.negated n).bind b = (e.bind b).negated n := by
  induction n with
  | zero => rfl
  | succ n ih => rw [Expr.negated, Expr.bind, ih, Expr.negated]

/-- A token of its own is an operand by its class. -/
theorem operand_of_kind (hp : Lexed p) (hahead : p.ahead = .token t rest)
    (hkind : t.kind = .number ∨ t.kind = .string ∨ t.kind = .quotedName) :
    operand p = atom t p.position { p with ahead := rest } := by
  apply operand_of_atom hahead
  have hall : ∀ kind ∈ [TokenKind.number, .string, .quotedName], ∀ word ∈ operandStarts,
      (word.toList.head?.any fun c => !kind.startsWith c) = true := by
    decide
  intro word hword
  obtain ⟨c, hc, hstart⟩ :=
    (Option.any_eq_true _ _).mp (hall t.kind (by simpa using hkind) word hword)
  obtain ⟨more, hcons⟩ := List.head?_eq_some_iff.mp hc
  exact hp.not_is hahead hcons (by simpa using hstart)

theorem operand_of_word (hp : Lexed p) (hahead : p.ahead = .token t rest) (hkind : t.kind = .word)
    (hwords : ∀ word ∈ ["COALESCE", "NULL", "NOT"], t.is word = false) :
    operand p = .ok (.column t.text) { p with ahead := rest } := by
  have hsigns : ∀ word ∈ ["(", "?", "-"], t.is word = false := by
    intro word hword
    simp only [List.mem_cons, List.not_mem_nil, or_false] at hword
    rcases hword with rfl | rfl | rfl
    · exact hp.not_is hahead (c := '(') rfl (by rw [hkind]; decide)
    · exact hp.not_is hahead (c := '?') rfl (by rw [hkind]; decide)
    · exact hp.not_is hahead (c := '-') rfl (by rw [hkind]; decide)
  rw [operand_of_atom hahead fun word hword => ?_, atom, hkind]
  · rfl
  · change word ∈ ["COALESCE", "NULL", "NOT"] ++ ["(", "?", "-"] at hword
    rcases List.mem_append.mp hword with hword | hword
    · exact hwords word hword
    · exact hsigns word hword

/-- What an atom is once the bound values are in it, the parser reads as its operand. -/
theorem exists_operand_of_atom (hp : Lexed p) (h : Atom b p e q) :
    ∃ e', operand p = .ok e' q ∧ e'.bind b = e := by
  cases h with
  | name hahead hkind hwords => exact ⟨_, operand_of_word hp hahead hkind hwords, rfl⟩
  | @quotedName t rest hahead hkind =>
      refine ⟨.column t.unquoted, ?_, rfl⟩
      rw [operand_of_kind hp hahead (.inr (.inr hkind)), atom, hkind]
      rfl
  | @number t rest hahead hkind hlt =>
      have hreads := hp.reads hahead
      rw [hkind] at hreads
      have hvalue := integerOfText?_of_digits hreads.1 hreads.2 hlt
      rw [String.ofList_toList] at hvalue
      refine ⟨.literal (.integer _), ?_, rfl⟩
      rw [operand_of_kind hp hahead (.inl hkind), atom, hkind, hvalue]
      rfl
  | @text t rest hahead hkind =>
      refine ⟨.literal (.text t.unquoted), ?_, rfl⟩
      rw [operand_of_kind hp hahead (.inr (.inl hkind)), atom, hkind]
      rfl
  | @parenthesis q t u rest behind e hahead his hinside hbehind hclose =>
      obtain ⟨e', q', hexpression, hbind⟩ := bind_eq_ok.mp hinside
      cases hbind
      refine ⟨e', ?_, rfl⟩
      have hsuffixes : withSuffixes true expression { p with ahead := rest }
          = .ok e' { q with suffixes := p.suffixes } := by
        rw [withSuffixes, hexpression]
      rw [operand_of_parenthesis hahead his, bind_apply_ok hsuffixes]
      have hexpect : expect ")" { q with suffixes := p.suffixes }
          = .ok () { q with ahead := behind, suffixes := p.suffixes } :=
        expectOne_of_is hbehind hclose (by decide)
      rw [bind_apply_ok hexpect]
      rfl

theorem startsOperand_of_class (hp : Lexed p) (hahead : p.ahead = .token t rest)
    (hkind : t.kind ≠ .symbol) : StartsOperand p := by
  refine ⟨t, rest, hahead, fun sign hsign => ?_⟩
  have hall : ∀ kind : TokenKind, kind ≠ .symbol → kind.startsWith '<' = false ∧
      kind.startsWith '>' = false ∧ kind.startsWith '|' = false := by
    intro kind hne
    cases kind with
    | symbol => exact absurd rfl hne
    | _ => decide
  obtain ⟨hlt, hgt, hbar⟩ := hall t.kind hkind
  simp only [pairStarts, List.mem_cons, List.not_mem_nil, or_false] at hsign
  rcases hsign with rfl | rfl | rfl
  · exact hp.not_is hahead rfl hlt
  · exact hp.not_is hahead rfl hgt
  · exact hp.not_is hahead rfl hbar

theorem startsOperand_of_is (hahead : p.ahead = .token t rest) {word : String}
    (his : t.is word = true) (hword : ∀ sign ∈ pairStarts, Text.sameWord word sign = false) :
    StartsOperand p :=
  ⟨t, rest, hahead, fun sign hsign => (is_eq_of_is his sign).trans (hword sign hsign)⟩

/-- Where an operand is read, no sign is next that an operator could go on with. -/
theorem startsOperand_of_operand (hp : Lexed p) (h : operand p = .ok e q) : StartsOperand p := by
  obtain ⟨t, rest, hahead⟩ := exists_token_of_operand h
  by_cases hkind : t.kind = .symbol
  · by_cases hword : ∃ word ∈ operandStarts, t.is word = true
    · obtain ⟨word, hmem, his⟩ := hword
      have hall : ∀ word ∈ operandStarts, ∀ sign ∈ pairStarts,
          Text.sameWord word sign = false := by decide
      exact startsOperand_of_is hahead his (hall word hmem)
    · rw [operand_of_atom hahead (by simpa using hword), atom, hkind] at h
      cases h
  · exact startsOperand_of_class hp hahead hkind

theorem startsOperand_of_atom (hp : Lexed p) (h : Atom b p e q) : StartsOperand p := by
  obtain ⟨_, hread, -⟩ := exists_operand_of_atom hp h
  exact startsOperand_of_operand hp hread

theorem startsOperand_of_nots {n : Nat} (h : Nots p n q) (hq : StartsOperand q) :
    StartsOperand p := by
  cases h with
  | none p => exact hq
  | not hahead his _ => exact startsOperand_of_is hahead his (by decide)

theorem Nots.leadsTo {n : Nat} (h : Nots p n q) : p.ahead.LeadsTo q.ahead := by
  induction h with
  | none p => exact .refl _
  | not hahead _ _ ih => exact hahead ▸ .token _ ih

theorem Atom.leadsTo (h : Atom b p e q) : p.ahead.LeadsTo q.ahead := by
  cases h with
  | name hahead _ _ => exact hahead ▸ .token _ (.refl _)
  | quotedName hahead _ => exact hahead ▸ .token _ (.refl _)
  | number hahead _ _ => exact hahead ▸ .token _ (.refl _)
  | text hahead _ => exact hahead ▸ .token _ (.refl _)
  | parenthesis hahead _ hinside hbehind _ =>
      have hmoves : TokenStream.LeadsTo _ _ := (movesOn_boundExpression b).ok hinside
      rw [hbehind] at hmoves
      exact hahead ▸ .token _ (hmoves.trans (.token _ (.refl _)))

theorem Operator.leadsTo (h : Operator op p q) : p.ahead.LeadsTo q.ahead := by
  cases h with
  | sign hahead _ _ => exact hahead ▸ .token _ (.refl _)
  | pair hahead _ _ _ _ => exact hahead ▸ .token _ (.token _ (.refl _))

theorem Links.leadsTo {links : List (Expr × BinaryOp)} (h : Links b p links q) :
    p.ahead.LeadsTo q.ahead := by
  induction h with
  | nil p => exact .refl _
  | cons hnots hatom hop _ ih =>
      exact hnots.leadsTo.trans (hatom.leadsTo.trans (hop.leadsTo.trans ih))

theorem startsOperand_of_links {links : List (Expr × BinaryOp)} (hp : Lexed p)
    (h : Links b p links q) (hq : StartsOperand q) : StartsOperand p := by
  cases h with
  | nil p => exact hq
  | cons hnots hatom _ _ =>
      exact startsOperand_of_nots hnots (startsOperand_of_atom (hp.of_leadsTo hnots.leadsTo) hatom)

end Tokens

end Parse

end OnePassSql
