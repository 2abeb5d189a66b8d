import OnePassSql.Proofs.Parser.Suffixes

/-!
The least integer. Its digits fit 64 bits only together with their sign, so a minus directly before
them is read as one literal if no operator follows. Any other minus covers all that follows its
digits. The two readings leave the same text unless a form that stands behind an operand follows:
no form is looked for behind the literal, but what a minus covers takes it.
-/

namespace OnePassSql

namespace TokenStream

/-- A minus, digits directly behind it, and more text. -/
def signed (digits rest : String) : List Char := '-' :: (digits.toList ++ rest.toList)

/-- The words that the forms behind an operand start with. -/
def suffixStarts : List String := ["NOT", "NOTNULL", "ISNULL", "IN"]

/-! ## Signed digits in a text -/

section Digits

variable {digits rest : String}

theorem cut_signed (h : TokenKind.number.Reads digits.toList)
    (hrest : ∀ c ∈ rest.toList.head?, c.isDigit = false) (n : Nat) :
    cut n (signed digits rest) = token ⟨.symbol, "-", n⟩
      (token ⟨.number, digits, n + 1⟩ (cut (n + 1 + digits.length) rest.toList)) := by
  have hlongest : ∀ c ∈ rest.toList.head?, ¬TokenKind.number.Reads (digits.toList ++ [c]) := by
    intro c hc hreads
    have hdigit := hreads.2 c (List.mem_append_right _ (List.mem_singleton_self c))
    rw [hrest c hc] at hdigit
    cases hdigit
  have hminus : scan? '-' (digits.toList ++ rest.toList)
      = some (.symbol, [], digits.toList ++ rest.toList) := rfl
  rw [signed, cut_of_scanned hminus]
  exact congrArg _ (cut_of_reads h hlongest (n + 1))

/-- Digits go on as far as digits stand behind them. -/
theorem exists_digits_append (rest : String) :
    ∃ more tail : String, rest = more ++ tail ∧ (∀ c ∈ more.toList, c.isDigit = true) ∧
      ∀ c ∈ tail.toList.head?, c.isDigit = false := by
  refine ⟨String.ofList (rest.toList.takeWhile Char.isDigit),
    String.ofList (rest.toList.dropWhile Char.isDigit), ?_, fun c hc => ?_, fun c hc => ?_⟩
  · rw [← String.ofList_append, List.takeWhile_append_dropWhile, String.ofList_toList]
  · rw [String.toList_ofList] at hc
    exact List.mem_takeWhile_imp hc
  · rw [String.toList_ofList] at hc
    have hhead := List.head?_dropWhile_not Char.isDigit rest.toList
    rwa [Option.mem_def.mp hc] at hhead

/-- More digits spell a greater number. -/
theorem digitsValue_lt_append {cs more : List Char} (h : 0 < Binary64.digitsValue cs)
    (hmore : more ≠ []) : Binary64.digitsValue cs < Binary64.digitsValue (cs ++ more) := by
  have hle (more : List Char) (n : Nat) :
      n ≤ more.foldl (fun n c => n * 10 + (c.toNat - '0'.toNat)) n := by
    induction more generalizing n with
    | nil => exact Nat.le_refl n
    | cons c more ih => exact Nat.le_trans (by omega) (ih (n * 10 + (c.toNat - '0'.toNat)))
  obtain ⟨c, more, rfl⟩ := List.exists_cons_of_ne_nil hmore
  unfold Binary64.digitsValue at h ⊢
  rw [List.foldl_append, List.foldl_cons]
  exact Nat.lt_of_lt_of_le (by omega) (hle more _)

end Digits

/-! ## Streams that stand elsewhere -/

section Shift

variable {s : TokenStream} {words : List String}

theorem at_iff : s.At words ↔ ∃ t rest, s = token t rest ∧ ∃ word ∈ words, t.is word = true := by
  constructor
  · rintro ⟨word, hmem, s', hword⟩
    cases hword with
    | cons his hnil => exact ⟨_, _, rfl, word, hmem, his⟩
  · rintro ⟨t, rest, rfl, word, hmem, his⟩
    exact ⟨word, hmem, rest, .cons his (.nil rest)⟩

theorem at_shift (d : Nat) : (s.shift d).At words ↔ s.At words := by
  rw [at_iff, at_iff]
  cases s with
  | token t rest =>
      constructor
      · rintro ⟨_, _, h, hword⟩
        cases h
        exact ⟨t, rest, rfl, hword⟩
      · rintro ⟨_, _, h, hword⟩
        cases h
        exact ⟨_, _, rfl, hword⟩
  | done n => constructor <;> rintro ⟨_, _, h, -⟩ <;> cases h
  | fault ch n => constructor <;> rintro ⟨_, _, h, -⟩ <;> cases h

theorem at_cut_iff {n : Nat} {cs : List Char} : (cut n cs).At words ↔ (cut 0 cs).At words := by
  rw [← at_shift n (s := cut 0 cs), ← cut_add, Nat.zero_add]

end Shift

end TokenStream

namespace Parse

open Step TokenStream

/-! ## What is looked for behind an operand -/

/-- What looking for an operator finds there. A character that no token starts with is only met where
it could be its second sign. -/
def SeesOperator : TokenStream → Option (BinaryOp × TokenStream) → Prop
  | .token t (.token u rest), found => operatorOf t (some u) (.token u rest) = found
  | .token t (.done n), found => operatorOf t none (.done n) = found
  | .token t (.fault ch n), found =>
      pairedSigns t = [] ∧ operatorOf t none (.fault ch n) = found
  | .done _, found => none = found
  | .fault _ _, _ => False

/-- Looking finds no operator, and meets no fault. -/
def NoOperator : TokenStream → Prop
  | .token t (.token u _) => paired? t u = none ∧ meaning? singleSigns t = none
  | .token t (.done _) => meaning? singleSigns t = none
  | .token t (.fault _ _) => pairedSigns t = [] ∧ meaning? singleSigns t = none
  | .done _ => True
  | .fault _ _ => False

section Behind

variable {p q : Parser} {s : TokenStream}

theorem peekOperator?_eq_ok_iff {found : Option (BinaryOp × TokenStream)} :
    peekOperator? p = .ok found q ↔ SeesOperator p.ahead found ∧ p = q := by
  cases hahead : p.ahead with
  | done n => rw [peekOperator?_of_done hahead, EStateM.Result.ok.injEq, SeesOperator]
  | fault ch n =>
      refine ⟨fun h => ?_, fun h => h.1.elim⟩
      obtain ⟨_, _, hpeek, -⟩ := bind_eq_ok.mp h
      rw [peek_of_fault hahead] at hpeek
      cases hpeek
  | token t rest =>
      cases rest with
      | token u rest =>
          rw [peekOperator?_of_peek hahead (peek_of_token rfl), EStateM.Result.ok.injEq,
            SeesOperator]
      | done n =>
          rw [peekOperator?_of_peek hahead (peek_of_done rfl), EStateM.Result.ok.injEq,
            SeesOperator]
      | fault ch n =>
          by_cases hpair : pairedSigns t = []
          · rw [peekOperator?_of_single hahead hpair, EStateM.Result.ok.injEq, SeesOperator,
              and_iff_right hpair]
            rfl
          · rw [peekOperator?_of_brokenPair hahead hpair]
            exact ⟨nofun, fun h => absurd h.1.1 hpair⟩

/-- An operator that is seen is a sign on its own, which the token behind it does not go on with, or
two signs side by side. -/
theorem SeesOperator.signs {s behind : TokenStream} {op : BinaryOp}
    (h : SeesOperator s (some (op, behind))) :
    (∃ t, s = .token t behind ∧ meaning? singleSigns t = some op ∧
      ∀ u rest, behind = .token u rest → paired? t u = none) ∨
    ∃ t u, s = .token t (.token u behind) ∧ paired? t u = some op := by
  have hsingle {t : Token} {rest : TokenStream}
      (hmap : (meaning? singleSigns t).map (fun op => (op, rest)) = some (op, behind)) :
      meaning? singleSigns t = some op ∧ rest = behind := by
    obtain ⟨op', hop, hfound⟩ := Option.map_eq_some_iff.mp hmap
    cases hfound
    exact ⟨hop, rfl⟩
  cases s with
  | done n => cases h
  | fault ch n => exact h.elim
  | token t rest =>
      cases rest with
      | done n =>
          obtain ⟨hop, rfl⟩ := hsingle h
          exact .inl ⟨t, rfl, hop, nofun⟩
      | fault ch n =>
          obtain ⟨hop, rfl⟩ := hsingle h.2
          exact .inl ⟨t, rfl, hop, nofun⟩
      | token u rest =>
          rw [SeesOperator, operatorOf, Option.bind_some] at h
          cases hpaired : paired? t u with
          | some op' =>
              rw [hpaired] at h
              cases h
              exact .inr ⟨t, u, rfl, hpaired⟩
          | none =>
              rw [hpaired] at h
              obtain ⟨hop, rfl⟩ := hsingle h
              refine .inl ⟨t, rfl, hop, fun v rest' hv => ?_⟩
              cases hv
              exact hpaired

theorem operatorOf_eq_none {first : Token} {second : Option Token} {rest : TokenStream} :
    operatorOf first second rest = none
      ↔ second.bind (paired? first) = none ∧ meaning? singleSigns first = none := by
  unfold operatorOf
  cases second.bind (paired? first) <;> simp

theorem seesOperator_none_iff : SeesOperator s none ↔ NoOperator s := by
  cases s with
  | done n => exact iff_of_true rfl trivial
  | fault ch n => exact Iff.rfl
  | token t rest =>
      cases rest with
      | token u rest => exact operatorOf_eq_none
      | done n => exact operatorOf_eq_none.trans (and_iff_right rfl)
      | fault ch n =>
          exact and_congr_right fun _ => operatorOf_eq_none.trans (and_iff_right rfl)

theorem noOperator_of_peekOperator? (h : peekOperator? p = .ok none q) : NoOperator p.ahead :=
  seesOperator_none_iff.mp (peekOperator?_eq_ok_iff.mp h).1

theorem peekOperator?_of_noOperator (h : NoOperator p.ahead) : peekOperator? p = .ok none p :=
  peekOperator?_eq_ok_iff.mpr ⟨seesOperator_none_iff.mpr h, rfl⟩

/-- What is seen does not hang on the cursor or the forms. -/
theorem takes_peekOperator? {found : Option (BinaryOp × TokenStream)}
    (h : peekOperator? p = .ok found q) : Takes peekOperator? p.ahead found p.ahead :=
  fun _ _ => peekOperator?_eq_ok_iff.mpr ⟨(peekOperator?_eq_ok_iff.mp h).1, rfl⟩

theorem paired?_shift (d : Nat) (t u : Token) :
    paired? { t with position := t.position + d } { u with position := u.position + d }
      = paired? t u := by
  have hplace : (u.position + d = t.position + d + t.text.length)
      = (u.position = t.position + t.text.length) := by
    rw [Nat.add_right_comm, Nat.add_right_cancel_iff]
  simp only [paired?, Token.stop, hplace]
  rfl

/-- Whether an operator is next does not hang on where the text stands. -/
theorem noOperator_shift (d : Nat) : NoOperator (s.shift d) ↔ NoOperator s := by
  cases s with
  | done n => exact Iff.rfl
  | fault ch n => exact Iff.rfl
  | token t rest =>
      cases rest with
      | token u rest =>
          simp only [shift, NoOperator, paired?_shift]
          exact Iff.rfl
      | done n => exact Iff.rfl
      | fault ch n => exact Iff.rfl

theorem noOperator_cut_iff {n : Nat} {cs : List Char} :
    NoOperator (cut n cs) ↔ NoOperator (cut 0 cs) := by
  rw [← noOperator_shift n (s := cut 0 cs), ← cut_add, Nat.zero_add]

/-- Behind an operand that no operator follows nothing more is taken, unless forms are on and one of
their words is next. -/
theorem stops_iff (hop : peekOperator? p = .ok none p) :
    Stops p ↔ (p.suffixes = true → ¬p.ahead.At suffixStarts) := by
  constructor
  · rintro ⟨-, hnone⟩ hsuffixes hat
    obtain ⟨t, rest, hahead, word, hmem, his⟩ := at_iff.mp hat
    obtain ⟨-, haccept⟩ := acceptOne?_of_suffix?_eq_none (hnone hsuffixes (.literal .null))
    have hmeaning : ∀ word ∈ suffixStarts,
        (meaning? [("NOT", Suffix.negated), ("NOTNULL", .notNull), ("ISNULL", .isNull),
          ("IN", .membership)] ⟨.word, word, 0⟩).isSome = true := by decide
    obtain ⟨form, hform⟩ := Option.isSome_iff_exists.mp (hmeaning word hmem)
    rw [acceptOne?_of_token hahead, meaning?_of_is his, hform] at haccept
    cases haccept
  · intro hnot
    refine ⟨hop, fun hsuffixes => suffix?_of_acceptOne? ?_⟩
    cases hahead : p.ahead with
    | done n => exact acceptOne?_of_done hahead _
    | fault ch n =>
        obtain ⟨t, r, hpeek, -⟩ := bind_eq_ok.mp hop
        rw [peek_of_fault hahead] at hpeek
        cases hpeek
    | token t rest =>
        rw [acceptOne?_of_token hahead]
        cases hform : meaning? _ t with
        | none => rfl
        | some form =>
            obtain ⟨word, hmem, his⟩ := exists_of_meaning? hform
            have hword := List.mem_map_of_mem (f := Prod.fst) hmem
            exact absurd (at_iff.mpr ⟨t, rest, hahead, word, hword, his⟩) (hnot hsuffixes)

end Behind

/-! ## The two readings of a minus -/

section Minus

variable {p q : Parser} {n : Nat} {digits least rest : String}

theorem is_minus (n : Nat) : (⟨.symbol, "-", n⟩ : Token).is "-" = true :=
  show Text.sameWord "-" "-" = true by decide

/-- A number that fits is an operand. -/
theorem operand_of_number {t : Token} {s : TokenStream} (hp : Lexed p)
    (hahead : p.ahead = .token t s) (hkind : t.kind = .number)
    (hlt : Binary64.digitsValue t.text.toList < Nat.pow 2 63) :
    operand p = .ok (.literal (.integer (Int64.ofNat (Binary64.digitsValue t.text.toList))))
      { p with ahead := s } := by
  have hreads := hp.reads hahead
  rw [hkind] at hreads
  have hvalue := integerOfText?_of_digits hreads.1 hreads.2 hlt
  rw [String.ofList_toList] at hvalue
  rw [operand_of_kind hp hahead (.inl hkind), atom, hkind, hvalue]
  rfl

/-- An operand that nothing goes on with is the whole expression. -/
theorem boundExpression_of_operand (b : Bindings) {e : Expr} (h : operand p = .ok e q)
    (hstops : Stops q) : boundExpression b p = .ok (e.bind b) q := by
  have hexpression : expression p = .ok e q := by
    rw [expression_apply, bind_apply_ok h, climb_of_stops hstops]
  rw [boundExpression, bind_apply_ok hexpression]
  rfl

/-- The least integer is taken where it is spelled and no operator follows; otherwise nothing is. -/
theorem leastInteger?_eq_ok {minus : Token} {p q : Parser} {found : Option Expr}
    (h : leastInteger? minus p = .ok found q) :
    Takes (leastInteger? minus) p.ahead found q.ahead ∧ q = { p with ahead := q.ahead } ∧
      (found = none ∧ q = p ∨ ∃ t, found = some (.literal (.integer Int64.minValue)) ∧
        p.ahead = .token t q.ahead ∧ SpellsLeast minus t ∧ NoOperator q.ahead) := by
  obtain ⟨s, cursor, suffixes⟩ := p
  cases s with
  | done n =>
      rw [leastInteger?_of_done rfl] at h
      cases h
      exact ⟨fun _ _ => leastInteger?_of_done rfl minus, rfl, .inl ⟨rfl, rfl⟩⟩
  | fault ch n =>
      obtain ⟨t, r, hpeek, -⟩ := bind_eq_ok.mp h
      rw [peek_of_fault rfl] at hpeek
      cases hpeek
  | token t rest =>
      by_cases hleast : SpellsLeast minus t
      · rw [leastInteger?_of_spells rfl hleast] at h
        cases hop : peekOperator? ⟨rest, cursor, suffixes⟩ with
        | error f r =>
            rw [hop] at h
            cases h
        | ok operator r =>
            have htakes : Takes peekOperator? rest operator rest := takes_peekOperator? hop
            rw [hop] at h
            cases operator with
            | some operator =>
                cases h
                refine ⟨fun cursor suffixes => ?_, rfl, .inl ⟨rfl, rfl⟩⟩
                rw [leastInteger?_of_spells rfl hleast, htakes cursor suffixes]
            | none =>
                cases h
                have hbehind : NoOperator rest := noOperator_of_peekOperator? hop
                refine ⟨fun cursor suffixes => ?_, rfl, .inr ⟨t, rfl, rfl, hleast, hbehind⟩⟩
                rw [leastInteger?_of_spells rfl hleast, htakes cursor suffixes]
      · rw [leastInteger?_of_not rfl hleast] at h
        cases h
        exact ⟨fun _ _ => leastInteger?_of_not rfl hleast, rfl, .inl ⟨rfl, rfl⟩⟩

/-- A minus is read as a literal only if it is that of the least integer and no operator follows. -/
theorem spellsLeast_of_operand {minus : Token} {s : TokenStream} {v : Value}
    (hahead : p.ahead = .token minus s) (his : minus.is "-" = true)
    (h : operand p = .ok (.literal v) q) :
    ∃ t behind, s = .token t behind ∧ SpellsLeast minus t ∧ q = { p with ahead := behind } ∧
      NoOperator behind := by
  rw [operand_of_sign hahead his] at h
  obtain ⟨found, r, hfound, h⟩ := bind_eq_ok.mp h
  obtain ⟨-, hr, ⟨rfl, -⟩ | ⟨t, rfl, hs, hspells, hop⟩⟩ := leastInteger?_eq_ok hfound
  · obtain ⟨e, r', -, h⟩ := bind_eq_ok.mp h
    cases h
  · cases h
    exact ⟨t, _, hs, hspells, hr, hop⟩

/-- The least integer is read where no operator follows its digits. -/
theorem operand_of_least (hleast : TokenKind.number.Reads least.toList)
    (hvalue : Binary64.digitsValue least.toList = Nat.pow 2 63)
    (hrest : ∀ c ∈ rest.toList.head?, c.isDigit = false) (hop : NoOperator (cut 0 rest.toList)) :
    operand { p with ahead := cut n (signed least rest) }
      = .ok (.literal (.integer Int64.minValue))
        { p with ahead := cut (n + 1 + least.length) rest.toList } := by
  have hspells : SpellsLeast ⟨.symbol, "-", n⟩ ⟨.number, least, n + 1⟩ := ⟨⟨rfl, rfl⟩, hvalue⟩
  have hbehind : NoOperator (cut (n + 1 + least.length) rest.toList) := noOperator_cut_iff.mpr hop
  rw [cut_signed hleast hrest, operand_of_sign rfl (is_minus n)]
  refine bind_eq_ok.mpr ⟨some (.literal (.integer Int64.minValue)), _, ?_, rfl⟩
  rw [leastInteger?_of_spells rfl hspells, peekOperator?_of_noOperator hbehind]

/-- What a minus that is the least integer has behind it. -/
theorem behind_of_least {v : Value} (hleast : TokenKind.number.Reads least.toList)
    (hvalue : Binary64.digitsValue least.toList = Nat.pow 2 63)
    (h : operand { p with ahead := cut n (signed least rest) } = .ok (.literal v) q) :
    q = { p with ahead := cut (n + 1 + least.length) rest.toList } ∧
      (∀ c ∈ rest.toList.head?, c.isDigit = false) ∧ NoOperator (cut 0 rest.toList) := by
  obtain ⟨more, tail, rfl, hmore, htail⟩ := exists_digits_append rest
  have hjoined : signed least (more ++ tail) = signed (least ++ more) tail := by
    simp only [signed, String.toList_append, List.append_assoc]
  have hdigits : TokenKind.number.Reads (least ++ more).toList := by
    rw [String.toList_append]
    refine ⟨by simp [hleast.1], fun c hc => ?_⟩
    exact (List.mem_append.mp hc).elim (hleast.2 c) (hmore c)
  rw [hjoined, cut_signed hdigits htail] at h
  obtain ⟨t, behind, hs, hspells, rfl, hop⟩ := spellsLeast_of_operand rfl (is_minus n) h
  cases hs
  -- with more digits behind it the number would be greater
  have hnil : more.toList = [] := by
    by_contra hsome
    have hlt := digitsValue_lt_append (by rw [hvalue]; decide) hsome
    have hsame := hspells.2
    rw [String.toList_append] at hsame
    rw [hvalue, hsame] at hlt
    exact Nat.lt_irrefl _ hlt
  obtain rfl := String.toList_eq_nil_iff.mp hnil
  rw [String.append_empty, String.empty_append]
  exact ⟨rfl, htail, noOperator_cut_iff.mp hop⟩

/-- Digits that fit 64 bits without a sign are all that the minus covers unless a form that stands
behind an operand follows. -/
theorem operand_of_signed (hdigits : TokenKind.number.Reads digits.toList)
    (hlt : Binary64.digitsValue digits.toList < Nat.pow 2 63)
    (hrest : ∀ c ∈ rest.toList.head?, c.isDigit = false) (hop : NoOperator (cut 0 rest.toList)) :
    operand { p with ahead := cut n (signed digits rest) }
        = .ok (.unary .negate
            (.literal (.integer (Int64.ofNat (Binary64.digitsValue digits.toList)))))
          { p with ahead := cut (n + 1 + digits.length) rest.toList }
      ↔ (p.suffixes = true → ¬(cut 0 rest.toList).At suffixStarts) := by
  have hnot : ∀ t behind, TokenStream.token ⟨.number, digits, n + 1⟩
      (cut (n + 1 + digits.length) rest.toList) = .token t behind →
        ¬SpellsLeast ⟨.symbol, "-", n⟩ t := by
    intro t behind ht hspells
    cases ht
    exact hspells.not_lt hlt
  have hpeek : peekOperator? { p with ahead := cut (n + 1 + digits.length) rest.toList }
      = .ok none { p with ahead := cut (n + 1 + digits.length) rest.toList } :=
    peekOperator?_of_noOperator (noOperator_cut_iff.mpr hop)
  have hlexed : Lexed { p with ahead := (cut n (signed digits rest)).tail } :=
    have htext : InText { p with ahead := cut n (signed digits rest) } := ⟨n, _, rfl⟩
    htext.lexed.of_leadsTo (leadsTo_tail _)
  rw [cut_signed hdigits hrest] at hlexed ⊢
  rw [← at_cut_iff (n := n + 1 + digits.length), ← stops_iff hpeek,
    operand_of_minus rfl (is_minus n) hnot]
  constructor
  · intro h
    obtain ⟨e, r, hexpression, h⟩ := bind_eq_ok.mp h
    cases h
    exact stops_of_expression hexpression
  · intro hstops
    refine bind_eq_ok.mpr ⟨_, _, ?_, rfl⟩
    have hdigit := operand_of_number hlexed rfl rfl hlt
    rw [expression_apply]
    exact bind_eq_ok.mpr ⟨_, _, hdigit, climb_of_stops hstops _ 0⟩

/-- Where a minus is read as the least integer, the text behind its digits is left; and any other
digits that fit are negated with that text left, exactly if no form that stands behind an operand is
read there. Then both are whole expressions. -/
theorem operand_of_least_iff (b : Bindings)
    (hleast : TokenKind.number.Reads least.toList)
    (hvalue : Binary64.digitsValue least.toList = Nat.pow 2 63)
    (h : operand { p with ahead := cut n (signed least rest) }
      = .ok (.literal (.integer Int64.minValue)) q) :
    q = { p with ahead := cut (n + 1 + least.length) rest.toList } ∧
    ∀ (digits : String) (number : Nat), TokenKind.number.Reads digits.toList →
      Binary64.digitsValue digits.toList = number → number < Nat.pow 2 63 →
      (operand { p with ahead := cut n (signed digits rest) }
          = .ok (.unary .negate (.literal (.integer (Int64.ofNat number))))
            { p with ahead := cut (n + 1 + digits.length) rest.toList }
        ↔ (p.suffixes = true → ¬(cut 0 rest.toList).At suffixStarts)) ∧
      ((p.suffixes = true → ¬(cut 0 rest.toList).At suffixStarts) →
        boundExpression b { p with ahead := cut n (signed least rest) }
            = .ok (.literal (.integer Int64.minValue)) q ∧
          boundExpression b { p with ahead := cut n (signed digits rest) }
            = .ok (.unary .negate (.literal (.integer (Int64.ofNat number))))
              { p with ahead := cut (n + 1 + digits.length) rest.toList }) := by
  obtain ⟨rfl, hrest, hop⟩ := behind_of_least hleast hvalue h
  refine ⟨rfl, ?_⟩
  rintro digits _ hdigits rfl hlt
  have hiff := operand_of_signed (p := p) (n := n) hdigits hlt hrest hop
  have hstops (m : Nat) (hnot : p.suffixes = true → ¬(cut 0 rest.toList).At suffixStarts) :
      Stops { p with ahead := cut m rest.toList } :=
    (stops_iff (peekOperator?_of_noOperator (noOperator_cut_iff.mpr hop))).mpr
      fun hsuffixes => mt at_cut_iff.mp (hnot hsuffixes)
  refine ⟨hiff, fun hnot => ⟨?_, ?_⟩⟩
  · exact boundExpression_of_operand b h (hstops _ hnot)
  · exact boundExpression_of_operand b (hiff.mpr hnot) (hstops _ hnot)

theorem reads_number_of_all {digits : List Char} (hne : digits ≠ [])
    (h : digits.all Char.isDigit = true) : TokenKind.number.Reads digits :=
  ⟨hne, List.all_eq_true.mp h⟩

/-- The digits of the least integer. -/
theorem reads_least :
    TokenKind.number.Reads "9223372036854775808".toList ∧
      Binary64.digitsValue "9223372036854775808".toList = Nat.pow 2 63 :=
  ⟨reads_number_of_all (by decide) (by decide), by decide⟩

theorem reads_five : TokenKind.number.Reads "5".toList :=
  reads_number_of_all (by decide) (by decide)

/-- Before a closing parenthesis both are whole expressions. -/
theorem operand_of_least_iff_parenthesis :
    operand (Parser.ofText "-9223372036854775808)")
        = .ok (.literal (.integer Int64.minValue)) ⟨cut 20 [')'], 0, true⟩ ∧
      boundExpression .empty (Parser.ofText "-9223372036854775808)")
        = .ok (.literal (.integer Int64.minValue)) ⟨cut 20 [')'], 0, true⟩ ∧
      boundExpression .empty (Parser.ofText "-5)")
        = .ok (.unary .negate (.literal (.integer 5))) ⟨cut 2 [')'], 0, true⟩ := by
  have hcut : cut 0 ")".toList = .token ⟨.symbol, ")", 0⟩ (.done 1) := by decide +kernel
  have hop : NoOperator (cut 0 ")".toList) := by
    rw [hcut]
    exact (by decide : meaning? singleSigns ⟨.symbol, ")", 0⟩ = none)
  have hnot : ¬(cut 0 ")".toList).At suffixStarts := by
    rw [hcut, at_iff]
    rintro ⟨t, rest, h, hword⟩
    cases h
    exact absurd hword (by decide)
  have hfold : operand ⟨cut 0 (signed "9223372036854775808" ")"), 0, true⟩
      = .ok (.literal (.integer Int64.minValue)) ⟨cut 20 ")".toList, 0, true⟩ :=
    operand_of_least (p := ⟨.done 0, 0, true⟩) reads_least.1 reads_least.2 (by simp) hop
  obtain ⟨-, hdigits⟩ := operand_of_least_iff (p := ⟨.done 0, 0, true⟩) .empty reads_least.1
    reads_least.2 hfold
  obtain ⟨-, hwhole⟩ := hdigits "5" 5 reads_five (by decide) (by decide)
  exact ⟨hfold, hwhole fun _ => hnot⟩

/-- So the literal does not always cover the text that another negation covers: what a minus covers
takes a form that stands behind its digits. -/
theorem not_operand_of_least :
    ¬∀ (rest : String) (q : Parser), operand (Parser.ofText ("-9223372036854775808" ++ rest))
        = .ok (.literal (.integer Int64.minValue)) q →
      ∀ (digits : String) (number : Nat), TokenKind.number.Reads digits.toList →
        Binary64.digitsValue digits.toList = number → 0 < number → number < Nat.pow 2 63 →
          operand (Parser.ofText ("-" ++ digits ++ rest))
            = .ok (.unary .negate (.literal (.integer (Int64.ofNat number))))
              ⟨cut (1 + digits.length) rest.toList, 0, true⟩ := by
  intro h
  have hcut : cut 0 " NOT NULL".toList
      = .token ⟨.word, "NOT", 1⟩ (.token ⟨.word, "NULL", 5⟩ (.done 9)) := by decide +kernel
  have hop : NoOperator (cut 0 " NOT NULL".toList) := by
    rw [hcut]
    exact ⟨by decide, by decide⟩
  have hat : (cut 0 " NOT NULL".toList).At suffixStarts := by
    rw [hcut, at_iff]
    exact ⟨_, _, rfl, by decide⟩
  have hfold : operand ⟨cut 0 (signed "9223372036854775808" " NOT NULL"), 0, true⟩
      = .ok (.literal (.integer Int64.minValue)) ⟨cut 20 " NOT NULL".toList, 0, true⟩ :=
    operand_of_least (p := ⟨.done 0, 0, true⟩) reads_least.1 reads_least.2 (by simp) hop
  have hcovers := h " NOT NULL" _ hfold "5" 5 reads_five (by decide) (by decide)
    (by decide)
  have hiff : operand ⟨cut 0 (signed "5" " NOT NULL"), 0, true⟩
        = .ok (.unary .negate (.literal (.integer 5))) ⟨cut 2 " NOT NULL".toList, 0, true⟩
      ↔ (true = true → ¬(cut 0 " NOT NULL".toList).At suffixStarts) :=
    operand_of_signed (p := ⟨.done 0, 0, true⟩) reads_five (by decide) (by simp) hop
  exact hiff.mp hcovers rfl hat

end Minus

end Parse

end OnePassSql
