import OnePassSql.Proofs.Parser.Frame
import OnePassSql.Proofs.Parser.LeastInteger
import OnePassSql.Proofs.Parser.QuestionMarks

/-!
The grammar of expressions, without the trees: which tokens are taken as what, which of them are
question marks that are read, and whether a form that stands behind an operand stands inside
parentheses. Whatever the parser reads has a derivation in the grammar.
-/

namespace OnePassSql

/-- The parts of an expression: an operand with all that follows it, what follows an operand, and
expressions with commas between them. -/
inductive Part where
  | operand | behind | arguments

namespace TokenStream

open Parse

theorem Words.right_unique {words : List String} {s s₁ s₂ : TokenStream} (h : Words words s s₁)
    (h' : Words words s s₂) : s₁ = s₂ := by
  induction h with
  | nil s =>
      cases h'
      rfl
  | cons _ _ ih =>
      cases h' with
      | cons _ hmore => exact ih hmore

/-- From the first stream a part of an expression leads to the second, with these question marks:
each with its number, if one stands directly behind it. The list of a membership test is passed over.
A form that stands behind an operand has to be inside parentheses, of which those of a call only
count if `calls` is set; `inside` says that the part is inside some. -/
inductive Spans (calls : Bool) :
    Bool → Part → TokenStream → List (Option Nat) → TokenStream → Prop where
  | sign {inside : Bool} {t : Token} {s s' : TokenStream} {marks : List (Option Nat)} :
      t.is "NOT" = true ∨ t.is "-" = true → Spans calls inside .operand s marks s' →
      Spans calls inside .operand (.token t s) marks s'
  | atom {inside : Bool} {t : Token} {s s' : TokenStream} {marks : List (Option Nat)} :
      t.is "NULL" = true ∨ t.kind ≠ .symbol ∧ (∀ word ∈ operandStarts, t.is word = false) →
      Spans calls inside .behind s marks s' → Spans calls inside .operand (.token t s) marks s'
  | question {inside : Bool} {t : Token} {s s' : TokenStream} {marks : List (Option Nat)} :
      t.is "?" = true → (∀ number rest, s = .token number rest → ¬IsNumberBehind t number) →
      Spans calls inside .behind s marks s' →
      Spans calls inside .operand (.token t s) (none :: marks) s'
  | numbered {inside : Bool} {t number : Token} {s s' : TokenStream} {marks : List (Option Nat)} :
      t.is "?" = true → IsNumberBehind t number → Spans calls inside .behind s marks s' →
      Spans calls inside .operand (.token t (.token number s))
        (some (Binary64.digitsValue number.text.toList) :: marks) s'
  | group {inside : Bool} {t : Token} {s s₁ s₂ s' : TokenStream} {first more : List (Option Nat)} :
      t.is "(" = true → Spans calls true .operand s first s₁ → Words [")"] s₁ s₂ →
      Spans calls inside .behind s₂ more s' →
      Spans calls inside .operand (.token t s) (first ++ more) s'
  | call {inside : Bool} {t : Token} {s s₁ s₂ s₃ s' : TokenStream}
      {first more : List (Option Nat)} :
      t.is "COALESCE" = true → Words ["("] s s₁ →
      Spans calls (inside || calls) .arguments s₁ first s₂ → Words [")"] s₂ s₃ →
      Spans calls inside .behind s₃ more s' →
      Spans calls inside .operand (.token t s) (first ++ more) s'
  | last {inside : Bool} {s s' : TokenStream} {marks : List (Option Nat)} :
      Spans calls inside .operand s marks s' → Spans calls inside .arguments s marks s'
  | more {inside : Bool} {s s₁ s₂ s' : TokenStream} {first more : List (Option Nat)} :
      Spans calls inside .operand s first s₁ → Words [","] s₁ s₂ →
      Spans calls inside .arguments s₂ more s' →
      Spans calls inside .arguments s (first ++ more) s'
  | nothing {inside : Bool} {s : TokenStream} : Spans calls inside .behind s [] s
  | operator {inside : Bool} {op : BinaryOp} {s s₁ s' : TokenStream}
      {marks : List (Option Nat)} :
      Takes peekOperator? s (some (op, s₁)) s → Spans calls inside .operand s₁ marks s' →
      Spans calls inside .behind s marks s'
  | form {form : PostfixForm} {s s₁ s' : TokenStream} {marks : List (Option Nat)} :
      Form form s s₁ → Spans calls true .behind s₁ marks s' →
      Spans calls true .behind s marks s'

end TokenStream

namespace Parse

open Step TokenStream

variable {α β : Type}

/-! ## Forms that are taken -/

section Forms

variable {p q : Parser}

/-- A list that is read stands in parentheses. -/
theorem exists_list_of_membershipList {list : String} (h : membershipList p = .ok list q) :
    ∃ s tokens, Words ["("] p.ahead s ∧ s.enclosed? 1 = some (tokens, q.ahead) ∧
      list = " ".intercalate (tokens.map Token.text) ∧ q = { p with ahead := q.ahead } := by
  obtain ⟨_, r, hopen, h⟩ := bind_eq_ok.mp h
  obtain ⟨t, s, hmeaning, hahead, rfl⟩ := expectOne_eq_ok hopen
  obtain ⟨word, hmem, his⟩ := exists_of_meaning? hmeaning
  obtain ⟨rfl, -⟩ := Prod.mk.inj (List.mem_singleton.mp hmem)
  refine ⟨s, ?_⟩
  cases hlist : s.enclosed? 1 with
  | some found =>
      obtain ⟨tokens, behind⟩ := found
      have hread := listBehindParenthesis_of_some (p := { p with ahead := s }) hlist
      obtain ⟨rfl, rfl⟩ := EStateM.Result.ok.inj (hread.symm.trans h)
      exact ⟨tokens, hahead ▸ .cons his (.nil s), rfl, rfl, rfl⟩
  | none =>
      have hread := listBehindParenthesis_of_none (p := { p with ahead := s }) hlist
      obtain ⟨u, r', hu, -⟩ := bind_eq_ok.mp (hread.symm.trans h)
      obtain ⟨rest, hending, -⟩ := expectToken_eq_ok hu
      exact absurd hending (ending_ne_token s u rest)

/-- What is taken behind an operand is a form. -/
theorem exists_form_of_suffix? {e e' : Expr} (h : suffix? e p = .ok (some e') q) :
    ∃ form, Form form p.ahead q.ahead ∧ e' = form.apply e ∧ q = { p with ahead := q.ahead } := by
  obtain ⟨found, r, hfound, h⟩ := bind_eq_ok.mp h
  cases found with
  | none => cases h
  | some form =>
  obtain ⟨hnone, -⟩ | ⟨_, t, s, hsome, hmeaning, hahead, rfl⟩ := acceptOne?_eq_ok hfound
  · cases hnone
  cases hsome
  obtain ⟨word, hmem, his⟩ := exists_of_meaning? hmeaning
  simp only [List.mem_cons, Prod.mk.injEq, List.not_mem_nil, or_false] at hmem
  rw [hahead]
  rcases hmem with ⟨rfl, rfl⟩ | ⟨rfl, rfl⟩ | ⟨rfl, rfl⟩ | ⟨rfl, rfl⟩
  · obtain ⟨isNull, r, hnull, h⟩ := bind_eq_ok.mp h
    obtain ⟨u, s₁, hmeaning, hahead', rfl⟩ := expectOne_eq_ok hnull
    obtain ⟨word, hmem, his'⟩ := exists_of_meaning? hmeaning
    simp only [List.mem_cons, Prod.mk.injEq, List.not_mem_nil, or_false] at hmem
    dsimp only at hahead'
    subst hahead'
    rcases hmem with ⟨rfl, rfl⟩ | ⟨rfl, rfl⟩
    · cases h
      exact ⟨.notNull, .notNull (.head _) (.cons his (.cons his' (.nil _))), rfl, rfl⟩
    · obtain ⟨list, r, hlist, h⟩ := bind_eq_ok.mp h
      obtain ⟨s₂, tokens, hopen, hinside, rfl, hr⟩ := exists_list_of_membershipList hlist
      cases h
      exact ⟨.membership _ true, .membership (.tail _ (.head _))
        (.cons his (.cons his' hopen)) hinside, rfl, hr⟩
  · cases h
    exact ⟨.notNull, .notNull (.tail _ (.head _)) (.cons his (.nil _)), rfl, rfl⟩
  · cases h
    exact ⟨.isNull, .isNull (.cons his (.nil _)), rfl, rfl⟩
  · obtain ⟨list, r, hlist, h⟩ := bind_eq_ok.mp h
    obtain ⟨s₂, tokens, hopen, hinside, rfl, hr⟩ := exists_list_of_membershipList hlist
    cases h
    exact ⟨.membership _ false, .membership (.head _) (.cons his hopen) hinside, rfl, hr⟩

end Forms

/-! ## Operands that stand alone -/

/-- A token that stands alone asks for nothing, and only signs do not stand alone. -/
theorem atom_eq_ok {t : Token} {start : Nat} {p q : Parser} {e : Expr}
    (h : atom t start p = .ok e q) :
    t.kind ≠ .symbol ∧ q = p ∧ e.parameters = [] ∧ ∀ p, atom t start p = .ok e p := by
  unfold atom at h ⊢
  cases hkind : t.kind with
  | symbol =>
      rw [hkind] at h
      cases h
  | number =>
      simp only [hkind] at h ⊢
      cases hvalue : integerOfText? t.text with
      | none =>
          rw [hvalue] at h
          cases h
      | some n =>
          rw [hvalue] at h
          cases h
          exact ⟨nofun, rfl, rfl, fun _ => rfl⟩
  | string =>
      simp only [hkind] at h ⊢
      cases h
      exact ⟨nofun, rfl, rfl, fun _ => rfl⟩
  | word =>
      simp only [hkind] at h ⊢
      cases h
      exact ⟨nofun, rfl, rfl, fun _ => rfl⟩
  | quotedName =>
      simp only [hkind] at h ⊢
      cases h
      exact ⟨nofun, rfl, rfl, fun _ => rfl⟩

/-! ## Words that are taken -/

theorem exists_word_of_expect {word : String} {p q : Parser} (h : expect word p = .ok ⟨⟩ q) :
    Words [word] p.ahead q.ahead ∧ q = { p with ahead := q.ahead } := by
  obtain ⟨t, rest, hmeaning, hahead, rfl⟩ := expectOne_eq_ok h
  obtain ⟨_, hmem, his⟩ := exists_of_meaning? hmeaning
  obtain ⟨rfl, -⟩ := Prod.mk.inj (List.mem_singleton.mp hmem)
  exact ⟨hahead ▸ .cons his (.nil rest), rfl⟩

theorem exists_word_of_accept {word : String} {p q : Parser} (h : accept word p = .ok true q) :
    Words [word] p.ahead q.ahead ∧ q = { p with ahead := q.ahead } := by
  obtain ⟨found, r, hfound, h⟩ := bind_eq_ok.mp h
  rcases acceptOne?_eq_ok hfound with ⟨rfl, -⟩ | ⟨_, t, rest, rfl, hmeaning, hahead, rfl⟩
  · cases h
  · cases h
    obtain ⟨_, hmem, his⟩ := exists_of_meaning? hmeaning
    obtain ⟨rfl, -⟩ := Prod.mk.inj (List.mem_singleton.mp hmem)
    exact ⟨hahead ▸ .cons his (.nil rest), rfl⟩

theorem SpellsLeast.not_operandStart {minus t : Token} (h : SpellsLeast minus t) :
    t.kind ≠ .symbol ∧ ∀ word ∈ operandStarts, t.is word = false := by
  constructor
  · rw [h.1.1]
    decide
  · have hshort : ∀ word ∈ operandStarts, word.length ≤ 8 := by decide
    intro word hmem
    exact eq_false_of_ne_true fun his => not_spellsLeast his (hshort word hmem) h

/-! ## Operands by their first token, within a budget -/

section Operands

variable {budget start : Nat} {t : Token}

theorem operandFrom_of_coalesce (h : t.is "COALESCE" = true) :
    operandFrom budget start t = (do
      expect "("
      let arguments ← argumentsWithin budget
      expect ")"
      return .call "COALESCE" arguments) := by
  rw [operandFrom, if_pos h]

theorem operandFrom_of_null (h : t.is "NULL" = true) :
    operandFrom budget start t = return .literal .null := by
  unfold operandFrom
  simp only [is_eq_of_is h]
  rw [if_neg (by decide), if_pos (by decide)]

theorem operandFrom_of_not (h : t.is "NOT" = true) :
    operandFrom budget start t = (do
      let operand ← operandWithin budget
      return .unary .not operand) := by
  unfold operandFrom
  simp only [is_eq_of_is h]
  rw [if_neg (by decide), if_neg (by decide), if_pos (by decide)]

theorem operandFrom_of_parenthesis (h : t.is "(" = true) :
    operandFrom budget start t = (do
      let e ← withSuffixes true (expressionWithin budget)
      expect ")"
      return e) := by
  unfold operandFrom
  simp only [is_eq_of_is h]
  rw [if_neg (by decide), if_neg (by decide), if_neg (by decide), if_pos (by decide)]

theorem operandFrom_of_question (h : t.is "?" = true) :
    operandFrom budget start t = parameter t := by
  unfold operandFrom
  simp only [is_eq_of_is h]
  rw [if_neg (by decide), if_neg (by decide), if_neg (by decide), if_neg (by decide),
    if_pos (by decide)]

theorem operandFrom_of_minus (h : t.is "-" = true) :
    operandFrom budget start t = (do
      match ← leastInteger? t with
      | some e => return e
      | none =>
        let operand ← expressionWithin budget
        return .unary .negate operand) := by
  unfold operandFrom
  simp only [is_eq_of_is h]
  rw [if_neg (by decide), if_neg (by decide), if_neg (by decide), if_neg (by decide),
    if_neg (by decide)]
  exact if_pos (by decide)

theorem operandFrom_of_atom (h : ∀ word ∈ operandStarts, t.is word = false) :
    operandFrom budget start t = atom t start := by
  simp only [operandStarts, List.forall_mem_cons] at h
  obtain ⟨hcoalesce, hnull, hnot, hopen, hquestion, hminus, -⟩ := h
  simp [operandFrom, hcoalesce, hnull, hnot, hopen, hquestion, hminus]

end Operands

/-! ## Derivations by their first token -/

section FirstToken

variable {calls i : Bool} {t : Token} {s s' : TokenStream} {marks : List (Option Nat)}

theorem start_unique {word other : String} (hword : t.is word = true) (hother : t.is other = true)
    (hmem : word ∈ operandStarts) (hmem' : other ∈ operandStarts) : word = other := by
  have hall : ∀ word ∈ operandStarts, ∀ other ∈ operandStarts,
      Text.sameWord word other = true → word = other := by decide
  exact hall word hmem other hmem' ((is_eq_of_is hword other).symm.trans hother)

/-- A token that is one of the words that start an operand starts the operand of that word. -/
theorem spans_of_start {word : String} (ht : t.is word = true) (hmem : word ∈ operandStarts)
    (h : Spans calls i .operand (.token t s) marks s') :
    (word = "NOT" ∨ word = "-") ∧ Spans calls i .operand s marks s' ∨
    word = "NULL" ∧ Spans calls i .behind s marks s' ∨
    word = "?" ∧ (∃ more, marks = none :: more ∧
      (∀ number rest, s = .token number rest → ¬IsNumberBehind t number) ∧
      Spans calls i .behind s more s') ∨
    word = "?" ∧ (∃ number s₁ more, s = .token number s₁ ∧ IsNumberBehind t number ∧
      marks = some (Binary64.digitsValue number.text.toList) :: more ∧
      Spans calls i .behind s₁ more s') ∨
    word = "(" ∧ (∃ first s₁ s₂ more, marks = first ++ more ∧ Spans calls true .operand s first s₁ ∧
      Words [")"] s₁ s₂ ∧ Spans calls i .behind s₂ more s') ∨
    word = "COALESCE" ∧ ∃ s₁ first s₂ s₃ more, marks = first ++ more ∧ Words ["("] s s₁ ∧
      Spans calls (i || calls) .arguments s₁ first s₂ ∧ Words [")"] s₂ s₃ ∧
      Spans calls i .behind s₃ more s' := by
  have hstart : ∀ other, t.is other = true → other ∈ operandStarts → word = other :=
    fun other hother hmem' => start_unique ht hother hmem hmem'
  cases h with
  | sign his hmore =>
      exact .inl ⟨his.imp (hstart _ · (by decide)) (hstart _ · (by decide)), hmore⟩
  | atom his hmore =>
      rcases his with his | ⟨-, his⟩
      · exact .inr (.inl ⟨hstart _ his (by decide), hmore⟩)
      · cases (his word hmem).symm.trans ht
  | question his hplain hmore =>
      exact .inr (.inr (.inl ⟨hstart _ his (by decide), _, rfl, hplain, hmore⟩))
  | numbered his hnumber hmore =>
      exact .inr (.inr (.inr (.inl
        ⟨hstart _ his (by decide), _, _, _, rfl, hnumber, rfl, hmore⟩)))
  | group his hinside hclose hmore =>
      exact .inr (.inr (.inr (.inr (.inl
        ⟨hstart _ his (by decide), _, _, _, _, rfl, hinside, hclose, hmore⟩))))
  | call his hopen hinside hclose hmore =>
      exact .inr (.inr (.inr (.inr (.inr
        ⟨hstart _ his (by decide), _, _, _, _, _, rfl, hopen, hinside, hclose, hmore⟩))))

/-- Behind a sign stands an operand. -/
theorem spans_iff_of_sign (ht : t.is "NOT" = true ∨ t.is "-" = true) :
    Spans calls i .operand (.token t s) marks s' ↔ Spans calls i .operand s marks s' := by
  refine ⟨fun h => ?_, fun h => .sign ht h⟩
  rcases ht with ht | ht <;> simpa using spans_of_start ht (by decide) h

/-- A token that starts no other operand stands alone. -/
theorem spans_iff_of_alone
    (ht : t.is "NULL" = true ∨ t.kind ≠ .symbol ∧ ∀ word ∈ operandStarts, t.is word = false) :
    Spans calls i .operand (.token t s) marks s' ↔ Spans calls i .behind s marks s' := by
  refine ⟨fun h => ?_, fun h => .atom ht h⟩
  rcases ht with ht | ⟨-, ht⟩
  · simpa using spans_of_start ht (by decide) h
  · simp only [operandStarts, List.forall_mem_cons] at ht
    obtain ⟨hcoalesce, -, hnot, hopen, hquestion, hminus, -⟩ := ht
    cases h with
    | atom _ hmore => exact hmore
    | sign his _ => simp [hnot, hminus] at his
    | question his _ _ => simp [hquestion] at his
    | numbered his _ _ => simp [hquestion] at his
    | group his _ _ _ => simp [hopen] at his
    | call his _ _ _ _ => simp [hcoalesce] at his

theorem spans_of_question (ht : t.is "?" = true)
    (hplain : ∀ number rest, s = .token number rest → ¬IsNumberBehind t number)
    (h : Spans calls i .operand (.token t s) marks s') :
    ∃ more, marks = none :: more ∧ Spans calls i .behind s more s' := by
  rcases by simpa using spans_of_start ht (by decide) h with
    ⟨more, hmarks, -, hmore⟩ | ⟨number, s₁, hs, hnumber, -⟩
  · exact ⟨more, hmarks, hmore⟩
  · exact absurd hnumber (hplain number s₁ hs)

theorem spans_of_numbered {number : Token} (ht : t.is "?" = true)
    (hnumber : IsNumberBehind t number)
    (h : Spans calls i .operand (.token t (.token number s)) marks s') :
    ∃ more, marks = some (Binary64.digitsValue number.text.toList) :: more ∧
      Spans calls i .behind s more s' := by
  rcases by simpa using spans_of_start ht (by decide) h with
    ⟨more, -, hplain, -⟩ | ⟨-, more, hmarks, hmore⟩
  · exact absurd hnumber hplain
  · exact ⟨more, hmarks, hmore⟩

theorem spans_of_group (ht : t.is "(" = true)
    (h : Spans calls i .operand (.token t s) marks s') :
    ∃ first s₁ s₂ more, marks = first ++ more ∧ Spans calls true .operand s first s₁ ∧
      Words [")"] s₁ s₂ ∧ Spans calls i .behind s₂ more s' := by
  simpa using spans_of_start ht (by decide) h

theorem spans_of_call (ht : t.is "COALESCE" = true)
    (h : Spans calls i .operand (.token t s) marks s') :
    ∃ s₁ first s₂ s₃ more, marks = first ++ more ∧ Words ["("] s s₁ ∧
      Spans calls (i || calls) .arguments s₁ first s₂ ∧ Words [")"] s₂ s₃ ∧
      Spans calls i .behind s₃ more s' := by
  simpa using spans_of_start ht (by decide) h

end FirstToken

end Parse

end OnePassSql
