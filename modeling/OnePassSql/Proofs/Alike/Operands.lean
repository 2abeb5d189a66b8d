import OnePassSql.Proofs.Alike.Operators

/-!
Operands are read alike from tokens that go abreast. The places of tokens show in them only through
what stands side by side: a number behind its question mark, and the least integer behind its minus.
-/

namespace OnePassSql.Parse

open Step TokenStream

variable {β γ : Type} {u v : TokenStream}

/-! ## Steps that look at the place of a token -/

theorem runsAlike_position :
    RunsAlike (Parser.comparison u v) (fun _ _ => True) position position :=
  ⟨movesOn_position, fun hs _ => ⟨_, _, rfl, trivial, hs⟩⟩

theorem expectToken_of_token {p : Parser} {first : Token} {rest : TokenStream}
    (h : p.ahead = .token first rest) : expectToken p = .ok first { p with ahead := rest } := by
  rw [expectToken_eq_takeNext, takeNext_of_token h]
  rfl

theorem expectName_of_token {p : Parser} {first : Token} {rest : TokenStream}
    (h : p.ahead = .token first rest) :
    expectName p = .ok first.name { p with ahead := rest } := by
  rw [expectName, bind_apply_ok (expectToken_of_token h)]
  rfl

theorem expectToken_of_done {p : Parser} {n : Nat} (h : p.ahead = .done n) :
    expectToken p = .error (.parse (.expected ["Identifier"]) p.position) p := by
  rw [expectToken_eq_takeNext, takeNext_of_done h]

theorem looksFirst_expectToken : LooksFirst expectToken := by
  rw [expectToken_eq_takeNext]
  exact looksFirst_takeNext _ _

theorem expectToken_of_fault {p : Parser} {ch : Char} {n : Nat} (h : p.ahead = .fault ch n) :
    expectToken p = .error (.lexical ch n) p :=
  looksFirst_expectToken p ch n h

theorem expectToken_bind_of_done {p : Parser} {n : Nat} (h : p.ahead = .done n)
    (f : Token → Parse β) :
    (expectToken >>= f) p = .error (.parse (.expected ["Identifier"]) p.position) p :=
  bind_eq_error.mpr (.inl (expectToken_of_done h))

/-- A step that has taken the first token behind the common ones says nothing any more, unless it
refuses what ends both texts. -/
theorem follows_of_beyond {V : β → γ → Prop} {f : Parse β} {r : EStateM.Result Fault Parser γ}
    {p : Parser} {t : Token} (hu : u = .token t p.ahead) (hf : p.LeadsTo (stateAfter f p)) :
    Follows (Parser.comparison u v) V (f p) r := by
  cases hfp : f p with
  | ok b q =>
      intro hview
      rw [stateAfter_of_ok hfp] at hf
      exact absurd (hf.trans (hu ▸ hview)) (not_leadsTo_token t p.ahead)
  | error e q =>
      subst hu
      exact fun hshow => absurd hshow not_shows_token

/-- What follows a token that is taken depends on its text and on whether the next one adjoins it.
-/
theorem follows_expectToken_bind {V : β → γ → Prop} (h : Tails u v) {p q : Parser}
    (hs : p.Abreast u v q) {f : Token → Parse β} {g : Token → Parse γ} (hmoves : ∀ t, MovesOn (f t))
    (hf : ∀ (t t' : Token) (p q : Parser), t.SameText t' →
      (p.ahead.Adjoins t ↔ q.ahead.Adjoins t') → p.Abreast u v q →
        Follows (Parser.comparison u v) V (f t p) (g t' q)) :
    Follows (Parser.comparison u v) V ((expectToken >>= f) p) ((expectToken >>= g) q) := by
  obtain ⟨s, cursor, suffixes⟩ := p
  obtain ⟨s', cursor', suffixes'⟩ := q
  obtain ⟨hs, rfl, rfl⟩ := hs
  dsimp only at hs
  cases hs.heads h with
  | token htext hadjoins hrest =>
      rw [bind_apply_ok (expectToken_of_token rfl), bind_apply_ok (expectToken_of_token rfl)]
      exact hf _ _ _ _ htext hadjoins ⟨hrest, rfl, rfl⟩
  | ended hu hv =>
      rw [expectToken_bind_of_done rfl, expectToken_bind_of_done rfl]
      exact fun _ => ⟨_, _, rfl, rfl, trivial⟩
  | broken hu hv =>
      exact follows_of_broken (looksFirst_expectToken.bind f) (looksFirst_expectToken.bind g) rfl
        rfl
  | closed hu hv htext hword hreads =>
      rw [bind_apply_ok (expectToken_of_token rfl)]
      exact follows_of_beyond hu (hmoves _ _)
  | clause hu hv hword hreads =>
      subst hu hv
      rw [expectToken_bind_of_done rfl]
      exact fun hshow => absurd hshow (not_shows_clause hword hreads)
  | terminated hu hv hsemi =>
      rw [expectToken_bind_of_done rfl]
      exact fun hshow => absurd hshow (not_shows_due hu hv)

/-! ## Parameters and the least integer -/

theorem stop_of_is {t : Token} {sign : String} (h : t.is sign = true) :
    t.stop = t.position + sign.length := by
  have hupper := congrArg List.length (eq_of_beq h)
  rw [List.length_map, List.length_map, String.length_toList, String.length_toList] at hupper
  rw [Token.stop, hupper]

theorem isNumberBehind_iff {sign t : Token} {word : String} {s : TokenStream}
    (h : sign.is word = true) (hword : word.length = 1) :
    IsNumberBehind sign t ↔ t.kind = .number ∧ (token t s).Adjoins sign := by
  rw [Adjoins, stop_of_is h, hword]
  refine and_congr_right fun hnumber => (and_iff_left ?_).symm
  rintro ⟨hsymbol, -⟩
  rw [hnumber] at hsymbol
  cases hsymbol

/-- Whether a number stands behind a sign is seen alike. -/
theorem isNumberBehind_congr {sign sign' t t' : Token} {s s' : TokenStream} {word : String}
    (hsign : sign.SameText sign') (his : sign.is word = true) (hword : word.length = 1)
    (ht : t.SameText t') (hadjoins : (token t s).Adjoins sign ↔ (token t' s').Adjoins sign') :
    IsNumberBehind sign t ↔ IsNumberBehind sign' t' := by
  rw [isNumberBehind_iff (s := s) his hword,
    isNumberBehind_iff (s := s') ((hsign.is_eq word).symm.trans his) hword, ht.kind, hadjoins]

theorem follows_placeCursor (h : Tails u v) {question question' : Token} {p q : Parser}
    (hquestion : question.SameText question') (his : question.is "?" = true)
    (hadjoins : p.ahead.Adjoins question ↔ q.ahead.Adjoins question') (hs : p.Abreast u v q) :
    Follows (Parser.comparison u v) Eq (placeCursor question p) (placeCursor question' q) := by
  obtain ⟨s, cursor, suffixes⟩ := p
  obtain ⟨s', cursor', suffixes'⟩ := q
  obtain ⟨hs, rfl, rfl⟩ := hs
  dsimp only at hs hadjoins
  -- where only the second text goes on, nothing stands side by side
  have hfirst : ∀ t rest, s.Adjoins question = False → s' = .token t rest →
      ¬IsNumberBehind question' t := by
    rintro t rest hdone rfl
    rw [isNumberBehind_iff (s := rest) ((hquestion.is_eq "?").symm.trans his) rfl, ← hadjoins,
      hdone]
    exact And.right
  cases hs.heads h with
  | @token t t' s s' htext _ hrest =>
      have hcongr := isNumberBehind_congr hquestion his rfl htext hadjoins
      by_cases hnumber : IsNumberBehind question t
      · rw [placeCursor_of_number rfl hnumber, placeCursor_of_number rfl (hcongr.mp hnumber),
          htext.text]
        cases parameterIndex? t'.text with
        | some n => exact fun _ => ⟨_, _, rfl, rfl, hrest, rfl, rfl⟩
        | none => exact fun _ => ⟨_, _, rfl, rfl, trivial⟩
      · rw [placeCursor_of_not_number rfl hnumber,
          placeCursor_of_not_number rfl (mt hcongr.mpr hnumber)]
        exact fun _ => ⟨_, _, rfl, rfl, hs, rfl, rfl⟩
  | ended hu hv =>
      rw [placeCursor_of_done rfl, placeCursor_of_done rfl]
      exact fun _ => ⟨_, _, rfl, rfl, hs, rfl, rfl⟩
  | broken hu hv =>
      exact follows_of_broken (looksFirst_peek.bind _) (looksFirst_peek.bind _) rfl rfl
  | @closed t t' s s' word hu hv htext hword hreads =>
      have hcongr := isNumberBehind_congr hquestion his rfl htext hadjoins
      by_cases hnumber : IsNumberBehind question t
      · rw [placeCursor_of_number rfl hnumber]
        subst hu
        cases parameterIndex? t.text with
        | some n => exact fun hview => absurd hview (not_leadsTo_token _ _)
        | none => exact fun hshow => absurd hshow not_shows_token
      · rw [placeCursor_of_not_number rfl hnumber,
          placeCursor_of_not_number rfl (mt hcongr.mpr hnumber)]
        exact fun _ => ⟨_, _, rfl, rfl, hs, rfl, rfl⟩
  | clause hu hv hword hreads =>
      rw [placeCursor_of_done rfl, placeCursor_of_not_number rfl (hfirst _ _ rfl rfl)]
      exact fun _ => ⟨_, _, rfl, rfl, hs, rfl, rfl⟩
  | terminated hu hv hsemi =>
      rw [placeCursor_of_done rfl, placeCursor_of_not_number rfl (hfirst _ _ rfl rfl)]
      exact fun _ => ⟨_, _, rfl, rfl, hs, rfl, rfl⟩

theorem follows_parameter (h : Tails u v) {question question' : Token} {p q : Parser}
    (hquestion : question.SameText question') (his : question.is "?" = true)
    (hadjoins : p.ahead.Adjoins question ↔ q.ahead.Adjoins question') (hs : p.Abreast u v q) :
    Follows (Parser.comparison u v) Eq (parameter question p) (parameter question' q) := by
  rw [parameter_eq_bind, parameter_eq_bind]
  refine follows_bind_at hs (movesOn_placeCursor question p)
    (follows_placeCursor h hquestion his hadjoins hs)
    (fun _ r _ => movesOn_parameterHere question r) ?_
  rintro - ⟨s, cursor, suffixes⟩ - ⟨s', cursor', suffixes'⟩ - - - ⟨hs, rfl, rfl⟩
  rw [parameterHere, parameterHere, bind_apply_ok (get_apply _), bind_apply_ok (get_apply _)]
  dsimp only
  split
  · exact fun _ => ⟨_, _, rfl, rfl, hs, rfl, rfl⟩
  · exact fun _ => ⟨_, _, rfl, rfl, trivial⟩

/-- A token that spells the magnitude of the least integer directly behind the minus. -/
def SpellsLeast (minus t : Token) : Prop :=
  IsNumberBehind minus t ∧ Binary64.digitsValue t.text.toList = Nat.pow 2 63

theorem leastInteger?_of_done {p : Parser} {n : Nat} (h : p.ahead = .done n) (minus : Token) :
    leastInteger? minus p = .ok none p := by
  rw [leastInteger?, bind_apply_ok (peek_of_done h)]
  rfl

theorem leastInteger?_of_not {p : Parser} {t : Token} {rest : TokenStream} {minus : Token}
    (h : p.ahead = .token t rest) (ht : ¬SpellsLeast minus t) :
    leastInteger? minus p = .ok none p := by
  unfold SpellsLeast IsNumberBehind at ht
  rw [and_assoc] at ht
  rw [leastInteger?, bind_apply_ok (peek_of_token h)]
  dsimp only
  rw [if_neg ht]
  rfl

theorem leastInteger?_of_spells {p : Parser} {t : Token} {rest : TokenStream} {minus : Token}
    (h : p.ahead = .token t rest) (ht : SpellsLeast minus t) :
    leastInteger? minus p = match peekOperator? { p with ahead := rest } with
      | .ok (some _) _ => .ok none p
      | .ok none _ => .ok (some (.literal (.integer Int64.minValue))) { p with ahead := rest }
      | .error e q => .error e q := by
  unfold SpellsLeast IsNumberBehind at ht
  rw [and_assoc] at ht
  rw [leastInteger?, bind_apply_ok (peek_of_token h)]
  dsimp only
  rw [if_pos ht, bind_apply_ok (get_apply p), bind_apply_ok (skip_of_token h)]
  cases hop : peekOperator? { p with ahead := rest } with
  | error e q => exact bind_eq_error.mpr (.inl hop)
  | ok found q =>
      obtain ⟨rfl, -⟩ := peekOperator?_eq_ok hop
      rw [bind_apply_ok hop]
      cases found <;> rfl

/-- A text of `n` characters spells no more than `2 ^ 32 * 10 ^ n`, whatever they are. -/
theorem digitsValue_le (cs : List Char) :
    Binary64.digitsValue cs ≤ Nat.pow 2 32 * Nat.pow 10 cs.length := by
  have hfold (cs : List Char) (n : Nat) :
      cs.foldl (fun n c => n * 10 + (c.toNat - '0'.toNat)) n + Nat.pow 2 32
        ≤ (n + Nat.pow 2 32) * Nat.pow 10 cs.length := by
    induction cs generalizing n with
    | nil => simp
    | cons c cs ih =>
        have hlt : c.toNat < Nat.pow 2 32 := c.val.toNat_lt
        have hpow : Nat.pow 10 (cs.length + 1) = 10 * Nat.pow 10 cs.length := Nat.mul_comm _ 10
        rw [List.foldl_cons, List.length_cons, hpow, ← Nat.mul_assoc]
        exact Nat.le_trans (ih _) (Nat.mul_le_mul_right _ (by omega))
  have hstart := hfold cs 0
  rw [Nat.zero_add] at hstart
  exact Nat.le_trans (Nat.le_add_right _ _) hstart

/-- A few characters do not spell it. -/
theorem not_spellsLeast {minus t : Token} {word : String} (h : t.is word = true)
    (hword : word.length ≤ 8) : ¬SpellsLeast minus t := by
  rintro ⟨-, hvalue⟩
  have hlength : t.text.toList.length = word.length := by
    rw [String.length_toList, ← Nat.add_left_cancel_iff (n := t.position), ← Token.stop,
      stop_of_is h]
  have hle := digitsValue_le t.text.toList
  rw [hvalue, hlength] at hle
  have hpow : Nat.pow 10 word.length ≤ Nat.pow 10 8 := Nat.pow_le_pow_right (by decide) hword
  exact absurd (Nat.le_trans hle (Nat.mul_le_mul_left _ hpow)) (by decide)

theorem spellsLeast_congr {minus minus' t t' : Token} {s s' : TokenStream}
    (hminus : minus.SameText minus') (his : minus.is "-" = true) (ht : t.SameText t')
    (hadjoins : (token t s).Adjoins minus ↔ (token t' s').Adjoins minus') :
    SpellsLeast minus t ↔ SpellsLeast minus' t' := by
  rw [SpellsLeast, SpellsLeast, isNumberBehind_congr hminus his rfl ht hadjoins, ht.text]

theorem follows_leastInteger? (h : Tails u v) {minus minus' : Token} {p q : Parser}
    (hminus : minus.SameText minus') (his : minus.is "-" = true)
    (hadjoins : p.ahead.Adjoins minus ↔ q.ahead.Adjoins minus') (hs : p.Abreast u v q) :
    Follows (Parser.comparison u v) Eq (leastInteger? minus p) (leastInteger? minus' q) := by
  obtain ⟨s, cursor, suffixes⟩ := p
  obtain ⟨s', cursor', suffixes'⟩ := q
  obtain ⟨hs, rfl, rfl⟩ := hs
  dsimp only at hs hadjoins
  have hfirst : ∀ t rest, s.Adjoins minus = False → s' = .token t rest →
      ¬SpellsLeast minus' t := by
    rintro t rest hdone rfl ⟨hnumber, -⟩
    rw [isNumberBehind_iff (s := rest) ((hminus.is_eq "-").symm.trans his) rfl, ← hadjoins,
      hdone] at hnumber
    exact hnumber.2
  cases hs.heads h with
  | @token t t' s s' htext _ hrest =>
      have hcongr := spellsLeast_congr hminus his htext hadjoins
      by_cases hleast : SpellsLeast minus t
      · rw [leastInteger?_of_spells rfl hleast, leastInteger?_of_spells rfl (hcongr.mp hleast)]
        have hbehind : Parser.Abreast u v ⟨s, cursor, suffixes⟩ ⟨s', cursor, suffixes⟩ :=
          ⟨hrest, rfl, rfl⟩
        have hfollows := (runsAlike_peekOperator? h).follows hbehind
        dsimp only
        cases hop : peekOperator? ⟨s, cursor, suffixes⟩ with
        | error e r =>
            intro hends
            obtain ⟨e', r', hop', hsame, -⟩ := hfollows.error hop hends
            rw [hop']
            exact ⟨_, _, rfl, hsame, trivial⟩
        | ok found r =>
            obtain ⟨rfl, -⟩ := peekOperator?_eq_ok hop
            obtain ⟨found', r', hop', hfound, -⟩ := hfollows.ok hop hrest.leadsTo
            rw [hop']
            cases hfound with
            | none => exact fun _ => ⟨_, _, rfl, rfl, hbehind⟩
            | some _ => exact fun _ => ⟨_, _, rfl, rfl, hs, rfl, rfl⟩
      · rw [leastInteger?_of_not rfl hleast, leastInteger?_of_not rfl (mt hcongr.mpr hleast)]
        exact fun _ => ⟨_, _, rfl, rfl, hs, rfl, rfl⟩
  | ended hu hv =>
      rw [leastInteger?_of_done rfl, leastInteger?_of_done rfl]
      exact fun _ => ⟨_, _, rfl, rfl, hs, rfl, rfl⟩
  | broken hu hv =>
      exact follows_of_broken (looksFirst_peek.bind _) (looksFirst_peek.bind _) rfl rfl
  | @closed t t' s s' word hu hv htext hword hreads =>
      have hshort : ∀ word ∈ closers, word.length ≤ 8 := by decide
      rw [leastInteger?_of_not rfl (not_spellsLeast hreads (hshort _ hword)),
        leastInteger?_of_not rfl
          (not_spellsLeast ((htext.is_eq word).symm.trans hreads) (hshort _ hword))]
      exact fun _ => ⟨_, _, rfl, rfl, hs, rfl, rfl⟩
  | clause hu hv hword hreads =>
      rw [leastInteger?_of_done rfl, leastInteger?_of_not rfl (hfirst _ _ rfl rfl)]
      exact fun _ => ⟨_, _, rfl, rfl, hs, rfl, rfl⟩
  | terminated hu hv hsemi =>
      rw [leastInteger?_of_done rfl, leastInteger?_of_not rfl (hfirst _ _ rfl rfl)]
      exact fun _ => ⟨_, _, rfl, rfl, hs, rfl, rfl⟩

/-! ## Operands -/

theorem listBehindParenthesis_of_some {p : Parser} {tokens : List Token} {rest : TokenStream}
    (h : p.ahead.enclosed? 1 = some (tokens, rest)) :
    listBehindParenthesis p
      = .ok (" ".intercalate (tokens.map Token.text)) { p with ahead := rest } := by
  rw [listBehindParenthesis, bind_apply_ok (get_apply p), h]
  rfl

theorem listBehindParenthesis_of_none {p : Parser} (h : p.ahead.enclosed? 1 = none) :
    listBehindParenthesis p
      = (do let t ← expectToken; return t.text : Parse String)
          { p with ahead := p.ahead.ending } := by
  rw [listBehindParenthesis, bind_apply_ok (get_apply p), h]
  rfl

theorem actsAlike_listBehindParenthesis : ActsAlike u v listBehindParenthesis := by
  refine ⟨movesOn_listBehindParenthesis, ?_⟩
  rintro ⟨s, cursor, suffixes⟩ ⟨s', cursor', suffixes'⟩ ⟨hs, rfl, rfl⟩
  dsimp only at hs
  cases hlist : s.enclosed? 1 with
  | some found =>
      rw [listBehindParenthesis_of_some hlist]
      intro hview
      obtain ⟨tokens', rest', hlist', htexts, hrest⟩ := hs.enclosed?_eq_some hlist hview
      rw [listBehindParenthesis_of_some hlist', htexts]
      exact ⟨_, _, rfl, rfl, hrest, rfl, rfl⟩
  | none =>
      rw [listBehindParenthesis_of_none hlist]
      dsimp only
      obtain ⟨hending, hending'⟩ := hs.endings
      cases hu : u.ending with
      | token first rest => exact absurd hu (ending_ne_token u first rest)
      | fault ch n =>
          rw [looksFirst_expectToken.bind _ _ _ _ (hending.trans hu)]
          intro hshow
          cases hshow with
          | ended hu' _ => rw [hu'] at hu; cases hu
          | terminated hu' _ _ _ => rw [hu'] at hu; cases hu
          | broken hu' hv =>
              rw [hu'] at hu
              cases hu
              rw [listBehindParenthesis_of_none (hs.enclosed?_eq_none (by rw [hv]; rfl) hlist),
                looksFirst_expectToken.bind _ _ _ _ (hending'.trans (by rw [hv]; rfl))]
              exact ⟨_, _, rfl, rfl, trivial⟩
      | done n =>
          rw [expectToken_bind_of_done (hending.trans hu)]
          intro hshow
          cases hshow with
          | broken hu' _ => rw [hu'] at hu; cases hu
          | terminated _ _ _ hdue => exact absurd rfl hdue
          | ended _ hv =>
              rw [listBehindParenthesis_of_none (hs.enclosed?_eq_none (by rw [hv]; rfl) hlist),
                expectToken_bind_of_done (hending'.trans (by rw [hv]; rfl))]
              exact ⟨_, _, rfl, rfl, trivial⟩

theorem actsAlike_membershipList (h : Tails u v) : ActsAlike u v membershipList :=
  (actsAlike_expect h (by decide)).bind fun _ => actsAlike_listBehindParenthesis

theorem actsAlike_suffix? (h : Tails u v) (operand : Expr) : ActsAlike u v (suffix? operand) := by
  refine (actsAlike_acceptOne? h (passes_of_tails h (by decide))).bind fun found => ?_
  cases found with
  | none => exact runsAlike_pure rfl
  | some form =>
      cases form with
      | notNull => exact runsAlike_pure rfl
      | isNull => exact runsAlike_pure rfl
      | membership => exact (actsAlike_membershipList h).bind fun _ => runsAlike_pure rfl
      | negated =>
          refine (actsAlike_expectOne h (by decide)).bind fun isNull => ?_
          cases isNull with
          | true => exact runsAlike_pure rfl
          | false => exact (actsAlike_membershipList h).bind fun _ => runsAlike_pure rfl

theorem runsAlike_atom {t t' : Token} (h : t.SameText t') (start start' : Nat) :
    RunsAlike (Parser.comparison u v) Eq (atom t start) (atom t' start') := by
  unfold atom
  rw [h.kind, h.text, h.unquoted_eq]
  cases t'.kind with
  | symbol => exact runsAlike_throw rfl
  | string => exact runsAlike_pure rfl
  | quotedName => exact runsAlike_pure rfl
  | word => exact runsAlike_pure rfl
  | number =>
      dsimp only
      cases integerOfText? t'.text with
      | some n => exact runsAlike_pure rfl
      | none => exact runsAlike_throw rfl

end OnePassSql.Parse
