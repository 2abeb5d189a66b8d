import Mathlib.Data.List.Infix
import OnePassSql.Proofs.Parser.Suffixes
import OnePassSql.Proofs.Shell.Splitting
import OnePassSql.Proofs.Token.Tokenisation

/-!
The lists of membership tests. A list goes up to the parenthesis that closes it, by a count of the
parentheses; its text is that of its tokens with one blank between any two of them, and it is read as
the same tokens again.
-/

namespace OnePassSql

/-! ## Texts put together from tokens -/

section Joining

variable {kind : TokenKind} {first : Char} {more tail : List Char} {n : Nat}

/-- A closed token ends before a blank, as it does at the end of a text. -/
theorem scan?_of_closed (h : kind.Reads (first :: more))
    (hclosed : (⟨kind, String.ofList (first :: more), n⟩ : Token).Closed)
    (htail : tail = [] ∨ tail.head? = some ' ') :
    scan? first (more ++ tail) = some (kind, more, tail) := by
  have halone : scan? first (more ++ []) = some (kind, more, []) := scan?_of_reads h (by simp)
  rcases htail with rfl | hblank
  · exact halone
  · exact scan?_append_of_canPrecede halone (.inr ⟨hclosed, rfl, hblank⟩)

theorem TokenKind.Reads.exists_cons {cs : List Char} (h : kind.Reads cs) :
    ∃ first more, cs = first :: more := by
  cases cs with
  | nil => cases kind <;> simp [TokenKind.Reads, IsQuoted] at h
  | cons first more => exact ⟨first, more, rfl⟩

/-- A closed token in front of a text that is spelled, with a blank between them if there is one. -/
theorem spells_cons {t : Token} {tokens : List Token} (hreads : t.kind.Reads t.text.toList)
    (hclosed : t.Closed) (htail : tail = [] ∨ tail.head? = some ' ') (h : Spells tail tokens) :
    Spells (t.text.toList ++ tail) (t :: tokens) := by
  obtain ⟨kind, text, n⟩ := t
  obtain ⟨first, more, htext⟩ := hreads.exists_cons
  obtain rfl : text = String.ofList (first :: more) := by rw [← htext, String.ofList_toList]
  dsimp only at hreads ⊢
  rw [String.toList_ofList] at hreads ⊢
  exact .token (scan?_of_closed hreads hclosed htail) rfl hclosed h

/-- Tokens with blanks between them spell these tokens. -/
theorem spells_intercalate {tokens : List Token}
    (h : ∀ t ∈ tokens, t.kind.Reads t.text.toList ∧ t.Closed) :
    Spells (" ".intercalate (tokens.map Token.text)).toList tokens := by
  rw [String.toList_intercalate, List.map_map]
  induction tokens with
  | nil => exact .nil
  | cons t tokens ih =>
      obtain ⟨⟨hreads, hclosed⟩, htokens⟩ := List.forall_mem_cons.mp h
      cases tokens with
      | nil =>
          have hone := spells_cons hreads hclosed (.inl rfl) .nil
          rw [List.append_nil] at hone
          rwa [List.map_singleton, List.intercalate_singleton]
      | cons u tokens =>
          rw [List.map_cons, List.map_cons, List.intercalate_cons_cons, List.append_assoc]
          exact spells_cons hreads hclosed (.inr rfl) (.blank (by decide) (ih htokens))

end Joining

/-! ## Balanced parentheses -/

/-- How many of the tokens open a parenthesis. -/
def opening (tokens : List Token) : Nat := tokens.countP (·.is "(")

/-- How many of the tokens close a parenthesis. -/
def closing (tokens : List Token) : Nat := tokens.countP (·.is ")")

/-- As many parentheses are closed as are opened, and never more along the way. -/
structure BalancedTokens (tokens : List Token) : Prop where
  along : ∀ first, first <+: tokens → closing first ≤ opening first
  whole : closing tokens = opening tokens

theorem balancedTokens_iff_inits {tokens : List Token} : BalancedTokens tokens
    ↔ (∀ first ∈ tokens.inits, closing first ≤ opening first) ∧ closing tokens = opening tokens := by
  simp only [List.mem_inits]
  exact ⟨fun h => ⟨h.along, h.whole⟩, fun h => ⟨h.1, h.2⟩⟩

instance : DecidablePred BalancedTokens := fun _ => decidable_of_iff _ balancedTokens_iff_inits.symm

namespace TokenStream

/-- The stream with the tokens in front. -/
def prepend (tokens : List Token) (s : TokenStream) : TokenStream := tokens.foldr token s

theorem toList_prepend (tokens : List Token) (s : TokenStream) :
    (prepend tokens s).toList = tokens ++ s.toList := by
  induction tokens with
  | nil => rfl
  | cons t tokens ih => exact congrArg (t :: ·) ih

theorem LeadsTo.toList_suffix {s t : TokenStream} (h : s.LeadsTo t) : t.toList <:+ s.toList := by
  induction h with
  | refl s => exact List.suffix_rfl
  | token first _ ih => exact ih.trans (List.suffix_cons first _)

section Enclosed

variable {s rest : TokenStream} {tokens : List Token} {depth : Nat} {close : Token}

theorem opening_cons (t : Token) (tokens : List Token) :
    opening (t :: tokens) = opening [t] + opening tokens := by
  rw [opening, opening, opening, ← List.countP_append, List.singleton_append]

theorem closing_cons (t : Token) (tokens : List Token) :
    closing (t :: tokens) = closing [t] + closing tokens := by
  rw [closing, closing, closing, ← List.countP_append, List.singleton_append]

/-- The depth counts a token, unless it closes the outermost parenthesis. -/
theorem depthBehind?_eq_some_iff {t : Token} {depth' : Nat} (hdepth : 0 < depth) :
    depthBehind? depth t = some depth'
      ↔ 0 < depth' ∧ depth' + closing [t] = depth + opening [t] := by
  have hone : ∀ word, [t].countP (·.is word) = if t.is word then 1 else 0 := fun word => by
    simp [List.countP_cons]
  unfold depthBehind? closing opening
  rw [hone, hone]
  cases hcloses : t.is ")" with
  | true =>
      have hopens : t.is "(" = false := (Parse.is_eq_of_is hcloses "(").trans (by decide)
      simp only [hopens, Bool.false_eq_true, if_true, if_false]
      split
      · simp only [reduceCtorEq, false_iff]
        omega
      · rw [Option.some.injEq]
        omega
  | false =>
      simp only [Bool.false_eq_true, if_false, Option.some.injEq]
      split <;> omega

/-- Where the parentheses of the tokens are closed one after the other, and the outermost one only
behind them, the tokens are the list. -/
theorem enclosed?_prepend
    (halong : ∀ first, first <+: tokens → closing first < depth + opening first)
    (hwhole : closing tokens + 1 = depth + opening tokens) (hclose : close.is ")" = true) :
    (prepend tokens (token close rest)).enclosed? depth = some (tokens, rest) := by
  induction tokens generalizing depth with
  | nil =>
      obtain rfl : depth = 1 := by
        rw [closing, opening, List.countP_nil, List.countP_nil] at hwhole
        omega
      show (token close rest).enclosed? 1 = _
      rw [enclosed?_token, depthBehind?, if_pos hclose]
      rfl
  | cons t tokens ih =>
      have hdepth : 0 < depth := halong [] List.nil_prefix
      have hfirst := halong [t] (List.cons_prefix_cons.mpr ⟨rfl, List.nil_prefix⟩)
      obtain ⟨depth', hcount⟩ : ∃ depth', 0 < depth' ∧ depth' + closing [t] = depth + opening [t] :=
        ⟨depth + opening [t] - closing [t], by omega, by omega⟩
      have hinside : (prepend tokens (token close rest)).enclosed? depth' = some (tokens, rest) := by
        refine ih (fun first hprefix => ?_) ?_
        · have hlt := halong (t :: first) (List.cons_prefix_cons.mpr ⟨rfl, hprefix⟩)
          rw [closing_cons, opening_cons] at hlt
          omega
        · rw [closing_cons, opening_cons] at hwhole
          omega
      show (token t (prepend tokens (token close rest))).enclosed? depth = _
      rw [enclosed?_token, (depthBehind?_eq_some_iff hdepth).mpr hcount]
      dsimp only
      rw [hinside]
      rfl

/-- What is in parentheses ends before the one that closes them, and its own parentheses are closed
one after the other. -/
theorem exists_of_enclosed? (h : s.enclosed? depth = some (tokens, rest)) (hdepth : 0 < depth) :
    ∃ close, close.is ")" = true ∧ s = prepend tokens (token close rest) ∧
      (∀ first, first <+: tokens → closing first < depth + opening first) ∧
      closing tokens + 1 = depth + opening tokens := by
  induction s generalizing depth tokens with
  | done n => cases h
  | fault ch n => cases h
  | token t s ih =>
      rcases enclosed?_token_eq_some h with
        ⟨hnone, rfl, rfl⟩ | ⟨depth', tokens', hsome, rfl, hinside⟩
      · unfold depthBehind? at hnone
        split at hnone
        next hclose =>
          split at hnone
          next hone =>
            refine ⟨t, hclose, rfl, fun first hfirst => ?_, ?_⟩
            · rw [List.prefix_nil.mp hfirst]
              exact hdepth
            · rw [hone]
              rfl
          next => cases hnone
        next => cases hnone
      · obtain ⟨hdepth', hcount⟩ := (depthBehind?_eq_some_iff hdepth).mp hsome
        obtain ⟨close, hclose, rfl, halong, hwhole⟩ := ih hinside hdepth'
        refine ⟨close, hclose, rfl, fun first hfirst => ?_, ?_⟩
        · rcases List.prefix_cons_iff.mp hfirst with rfl | ⟨first, rfl, hprefix⟩
          · exact Nat.lt_add_right _ hdepth
          · have hlt := halong first hprefix
            rw [closing_cons, opening_cons]
            omega
        · rw [closing_cons, opening_cons]
          omega

end Enclosed

/-- A list is what stands balanced before a closing parenthesis. -/
theorem enclosed?_one_iff {s rest : TokenStream} {tokens : List Token} :
    s.enclosed? 1 = some (tokens, rest)
      ↔ BalancedTokens tokens ∧
        ∃ close, close.is ")" = true ∧ s = prepend tokens (token close rest) := by
  constructor
  · intro h
    obtain ⟨close, hclose, hs, halong, hwhole⟩ := exists_of_enclosed? h Nat.one_pos
    refine ⟨⟨fun first hfirst => ?_, ?_⟩, close, hclose, hs⟩
    · have hlt := halong first hfirst
      omega
    · omega
  · rintro ⟨⟨halong, hwhole⟩, close, hclose, rfl⟩
    refine enclosed?_prepend (fun first hfirst => ?_) ?_ hclose
    · have hle := halong first hfirst
      omega
    · omega

end TokenStream

/-! ## The lists -/

/-- The token is the name of a column. -/
inductive Token.Names (t : Token) : String → Prop where
  | word : t.kind = .word → (∀ word ∈ ["COALESCE", "NULL", "NOT"], t.is word = false) →
      Names t t.text
  | quotedName : t.kind = .quotedName → Names t t.unquoted

namespace Parse

open Step TokenStream

section Lists

variable {p : Parser} {t close : Token} {tokens : List Token} {rest s s₁ : TokenStream}
  {name : String} {words : List String} {negated : Bool}

/-- The tokens before another one are closed, since the text goes on behind them. -/
theorem closed_of_prepend {n : Nat} {cs : List Char}
    (h : (cut n cs).LeadsTo (prepend tokens (.token close rest))) :
    ∀ t ∈ tokens, t.kind.Reads t.text.toList ∧ t.Closed := by
  intro t ht
  have hstands : ∀ u ∈ (prepend tokens (.token close rest)).toList,
      u.StandsIn (List.replicate n ' ' ++ cs) := fun u hu =>
    (standsIn_of_mem_cut (h.mem hu)).2 _ List.length_replicate
  have hascending := (ascending_cut n cs).sublist h.toList_suffix.sublist
  rw [toList_prepend] at hstands hascending
  have htoken := hstands t (List.mem_append_left _ ht)
  have hclose := hstands close (List.mem_append_right _ (.head _))
  refine ⟨htoken.reads, fun quote hquote => ?_⟩
  obtain ⟨body, -, htext | ⟨-, hend⟩⟩ := htoken.quoted quote hquote
  · rw [← String.length_toList, htext]
    refine ⟨?_, by rw [← List.cons_append, List.getLast?_concat]⟩
    rw [List.length_cons, List.length_append, List.length_singleton]
    omega
  · have hbefore := ((List.pairwise_append.mp hascending).2.2 t ht close (.head _)).2
    have hinside := hclose.stop_le
    have hpos := hclose.nonempty
    rw [Token.stop] at hinside
    omega

/-- The text of a list is read as the tokens of the list again. -/
theorem ofText_of_list (hp : InText p) (h : p.ahead.LeadsTo (prepend tokens (.token close rest))) :
    (ofText (" ".intercalate (tokens.map Token.text))).Complete ∧
      ((ofText (" ".intercalate (tokens.map Token.text))).toList.map fun t => (t.kind, t.text))
        = tokens.map fun t => (t.kind, t.text) := by
  obtain ⟨n, cs, hcut⟩ := hp
  exact (spells_intercalate (closed_of_prepend (hcut ▸ h))).cut 0

theorem operand_of_names (hp : InText p) (hahead : p.ahead = .token t s) (ht : t.Names name) :
    operand p = .ok (.column name) { p with ahead := s } := by
  cases ht with
  | word hkind hwords => exact operand_of_word hp.lexed hahead hkind hwords
  | quotedName hkind =>
      rw [operand_of_kind hp.lexed hahead (.inr (.inr hkind)), atom, hkind]
      rfl

/-- Where nothing closes the list, the end of the text stands where a token should. -/
theorem membershipList_of_unclosed (hopen : Words ["("] s s₁) (hnone : s₁.enclosed? 1 = none)
    {n : Nat} (hending : s₁.ending = .done n) (cursor : Nat) (on : Bool) :
    membershipList ⟨s, cursor, on⟩
      = .error (.parse (.expected ["Identifier"]) n) ⟨.done n, cursor, on⟩ := by
  show (expect "(" >>= fun _ => listBehindParenthesis) ⟨s, cursor, on⟩ = _
  rw [bind_apply_ok (takes_expect hopen cursor on), listBehindParenthesis_of_none hnone, hending]
  exact bind_eq_error.mpr (.inl (expectToken_of_done rfl))

theorem suffix?_of_unclosed (e : Expr)
    (hwords : (words, negated) ∈ [(["IN", "("], false), (["NOT", "IN", "("], true)])
    (hs : Words words s s₁) (hnone : s₁.enclosed? 1 = none) {n : Nat}
    (hending : s₁.ending = .done n) (cursor : Nat) (on : Bool) :
    suffix? e ⟨s, cursor, on⟩
      = .error (.parse (.expected ["Identifier"]) n) ⟨.done n, cursor, on⟩ := by
  simp only [List.mem_cons, List.not_mem_nil, or_false, Prod.mk.injEq] at hwords
  rcases hwords with ⟨rfl, rfl⟩ | ⟨rfl, rfl⟩
  · obtain ⟨s₂, hin, hopen⟩ := hs.exists_of_cons
    have hfault := membershipList_of_unclosed hopen hnone hending cursor on
    rw [suffix?, bind_apply_ok (takes_acceptOne?_of_words hin (a := .membership) rfl cursor on)]
    exact bind_eq_error.mpr (.inl hfault)
  · obtain ⟨s₂, hnot, hs⟩ := hs.exists_of_cons
    obtain ⟨s₃, hin, hopen⟩ := hs.exists_of_cons
    have hfault := membershipList_of_unclosed hopen hnone hending cursor on
    rw [suffix?, bind_apply_ok (takes_acceptOne?_of_words hnot (a := .negated) rfl cursor on)]
    dsimp only
    rw [bind_apply_ok (takes_expectOne hin (a := false) rfl cursor on)]
    exact bind_eq_error.mpr (.inl hfault)

theorem climb_of_unclosed (e : Expr) (least : Nat) {n : Nat}
    (hwords : (words, negated) ∈ [(["IN", "("], false), (["NOT", "IN", "("], true)])
    (hs : Words words s s₁) (hnone : s₁.enclosed? 1 = none) (hending : s₁.ending = .done n)
    (hon : p.suffixes = true) :
    climb e least { p with ahead := s }
      = .error (.parse (.expected ["Identifier"]) n) { p with ahead := .done n } := by
  have hat : s.At ["NOT", "NOTNULL", "ISNULL", "IN"] := by
    simp only [List.mem_cons, List.not_mem_nil, or_false, Prod.mk.injEq] at hwords
    rcases hwords with ⟨rfl, -⟩ | ⟨rfl, -⟩ <;> exact hs.at_of_mem (by decide)
  rw [climb_apply, bind_apply_ok (peekOperator?_of_formStart hat)]
  dsimp only
  rw [bind_apply_ok (get_apply _), if_pos hon]
  exact bind_eq_error.mpr (.inl (suffix?_of_unclosed e hwords hs hnone hending _ _))

/-- A column, `IN` or `NOT IN`, and an opening parenthesis. With balanced tokens up to one that
closes it, they are a membership test, and what follows it is read on from there. The text of its
list is read as these tokens again. With no such tokens up to the end of the text there is a parse
fault. -/
theorem expression_of_membership (hp : InText p) (hon : p.suffixes = true)
    (hahead : p.ahead = .token t s) (ht : t.Names name)
    (hwords : (words, negated) ∈ [(["IN", "("], false), (["NOT", "IN", "("], true)])
    (hs : Words words s s₁) :
    (∀ tokens close rest, BalancedTokens tokens → close.is ")" = true →
      s₁ = prepend tokens (.token close rest) →
        ∃ list, (ofText list).Complete ∧
          ((ofText list).toList.map fun t => (t.kind, t.text))
            = tokens.map (fun t => (t.kind, t.text)) ∧
          expression p = climb (.membership (.column name) list negated) 0 { p with ahead := rest } ∧
          (Stops { p with ahead := rest } →
            expression p
              = .ok (.membership (.column name) list negated) { p with ahead := rest })) ∧
    (s₁.Complete → (¬∃ tokens close rest, BalancedTokens tokens ∧ close.is ")" = true ∧
        s₁ = prepend tokens (.token close rest)) →
      ∃ problem n q, expression p = .error (.parse problem n) q) := by
  have hoperand : operand p = .ok (.column name) { p with ahead := s } :=
    operand_of_names hp hahead ht
  constructor
  · rintro tokens close rest hbalanced hclose rfl
    have hlist : (prepend tokens (.token close rest)).enclosed? 1 = some (tokens, rest) :=
      enclosed?_one_iff.mpr ⟨hbalanced, close, hclose, rfl⟩
    have hform := Form.membership hwords hs hlist
    have hleads : p.ahead.LeadsTo (prepend tokens (.token close rest)) := by
      rw [hahead]
      exact .token t hs.leadsTo
    obtain ⟨hcomplete, hread⟩ := ofText_of_list hp hleads
    have hclimb : expression p = climb
        (.membership (.column name) (" ".intercalate (tokens.map Token.text)) negated) 0
          { p with ahead := rest } := by
      have hop : peekOperator? { p with ahead := s } = .ok none { p with ahead := s } :=
        hform.peekOperator?
      have htaken := hform.takes_suffix? (.column name) p.cursor p.suffixes
      rw [expression_apply, bind_apply_ok hoperand]
      exact climb_of_suffix hop hon htaken 0
    exact ⟨_, hcomplete, hread, hclimb, fun hstops => hclimb.trans (climb_of_stops hstops _ 0)⟩
  · rintro ⟨n, hending⟩ hnever
    have hnone : s₁.enclosed? 1 = none := by
      cases hlist : s₁.enclosed? 1 with
      | none => rfl
      | some list =>
          obtain ⟨hbalanced, close, hclose, hs₁⟩ := enclosed?_one_iff.mp hlist
          exact absurd ⟨_, close, _, hbalanced, hclose, hs₁⟩ hnever
    have hfault := climb_of_unclosed (.column name) 0 hwords hs hnone hending hon
    refine ⟨_, _, _, Eq.trans ?_ hfault⟩
    rw [expression_apply, bind_apply_ok hoperand]

/-- A quoted parenthesis does not count; a list that is not closed is a fault. -/
theorem expression_of_membership_nested :
    (∃ list, (ofText list).Complete ∧
      ((ofText list).toList.map fun t => (t.kind, t.text))
        = [(.symbol, "("), (.number, "1"), (.symbol, ")"), (.symbol, ","), (.string, "')'")] ∧
      expression (.ofText "a NOT IN ((1), ')')")
        = .ok (.membership (.column "a") list true) ⟨.done 19, 0, true⟩) ∧
    ∃ problem n q, expression (.ofText "a IN ((1)") = .error (.parse problem n) q := by
  have hword : ∀ (kind : TokenKind) (word : String) (n : Nat),
      (⟨kind, word, n⟩ : Token).is word = true := fun _ word _ => by simp [Token.is, Text.sameWord]
  have hname : ∀ word ∈ ["COALESCE", "NULL", "NOT"], Text.sameWord "a" word = false := by decide
  have hnames : ∀ n, (⟨.word, "a", n⟩ : Token).Names "a" := fun n => .word rfl hname
  constructor
  · have hahead : (Parser.ofText "a NOT IN ((1), ')')").ahead = .token ⟨.word, "a", 0⟩
        (.token ⟨.word, "NOT", 2⟩ (.token ⟨.word, "IN", 6⟩ (.token ⟨.symbol, "(", 9⟩
          (prepend [⟨.symbol, "(", 10⟩, ⟨.number, "1", 11⟩, ⟨.symbol, ")", 12⟩, ⟨.symbol, ",", 13⟩,
            ⟨.string, "')'", 15⟩] (.token ⟨.symbol, ")", 18⟩ (.done 19)))))) := by
      decide +kernel
    have hstops : Stops ⟨.done 19, 0, true⟩ :=
      ⟨peekOperator?_of_done rfl, fun _ => suffix?_of_acceptOne? (acceptOne?_of_done rfl _)⟩
    obtain ⟨list, hcomplete, hread, -, hexpression⟩ :=
      (expression_of_membership ⟨0, _, rfl⟩ rfl hahead (hnames 0) (.tail _ (.head _))
        (.cons (hword _ _ _) (.cons (hword _ _ _) (.cons (hword _ _ _) (.nil _))))).1
        _ _ _ (by decide) (hword _ _ _) rfl
    exact ⟨list, hcomplete, hread, hexpression hstops⟩
  · have hahead : (Parser.ofText "a IN ((1)").ahead = .token ⟨.word, "a", 0⟩
        (.token ⟨.word, "IN", 2⟩ (.token ⟨.symbol, "(", 5⟩ (.token ⟨.symbol, "(", 6⟩
          (.token ⟨.number, "1", 7⟩ (.token ⟨.symbol, ")", 8⟩ (.done 9)))))) := by
      decide +kernel
    refine (expression_of_membership ⟨0, _, rfl⟩ rfl hahead (hnames 0) (.head _)
      (.cons (hword _ _ _) (.cons (hword _ _ _) (.nil _)))).2 ⟨9, rfl⟩ ?_
    rintro ⟨tokens, close, rest, hbalanced, hclose, hs⟩
    cases enclosed?_one_iff.mpr ⟨hbalanced, close, hclose, hs⟩

end Lists

end Parse

end OnePassSql
