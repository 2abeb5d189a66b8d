import OnePassSql.Parser.Expression
import OnePassSql.Proofs.Step
import OnePassSql.Statement.Clause

/-!
Parsers move through the tokens in one direction: whatever a parser does, and also where it faults,
what is left is what was there without some tokens at its front.
-/

namespace OnePassSql

open Step

theorem Text.sameWord_congr_left {s t : String} (h : sameWord s t = true) (word : String) :
    sameWord s word = sameWord t word := by
  rw [sameWord, sameWord, eq_of_beq h]

/-! ## Streams with tokens taken off -/

/-- The second stream is the first without some tokens at its front. -/
inductive TokenStream.LeadsTo : TokenStream → TokenStream → Prop where
  | refl (s) : LeadsTo s s
  | token (first) {rest s} : LeadsTo rest s → LeadsTo (.token first rest) s

namespace TokenStream

theorem LeadsTo.trans {s t u : TokenStream} (hst : s.LeadsTo t) (htu : t.LeadsTo u) :
    s.LeadsTo u := by
  induction hst with
  | refl s => exact htu
  | token first _ ih => exact .token first (ih htu)

theorem LeadsTo.length_le {s t : TokenStream} (h : s.LeadsTo t) : t.length ≤ s.length := by
  induction h with
  | refl s => exact Nat.le_refl _
  | token first _ ih => simp only [length]; omega

theorem leadsTo_tail (s : TokenStream) : s.LeadsTo s.tail := by
  cases s with
  | token first rest => exact .token first (.refl rest)
  | done position => exact .refl _
  | fault ch position => exact .refl _

theorem leadsTo_ending (s : TokenStream) : s.LeadsTo s.ending := by
  induction s with
  | token first rest ih => exact .token first ih
  | done position => exact .refl _
  | fault ch position => exact .refl _

theorem leadsTo_of_enclosed? {s rest : TokenStream} {depth : Nat} {tokens : List Token}
    (h : s.enclosed? depth = some (tokens, rest)) : s.LeadsTo rest := by
  induction s generalizing depth tokens with
  | token first tail ih =>
      simp only [enclosed?] at h
      split at h
      · split at h
        · simp only [Option.some.injEq, Prod.mk.injEq] at h
          exact .token first (h.2 ▸ .refl tail)
        · obtain ⟨r, hr, he⟩ := Option.map_eq_some_iff.mp h
          simp only [Prod.mk.injEq] at he
          exact .token first (ih (hr.trans (congrArg some (Prod.ext rfl he.2))))
      · obtain ⟨r, hr, he⟩ := Option.map_eq_some_iff.mp h
        simp only [Prod.mk.injEq] at he
        exact .token first (ih (hr.trans (congrArg some (Prod.ext rfl he.2))))
  | done position => simp [enclosed?] at h
  | fault ch position => simp [enclosed?] at h

end TokenStream

namespace Parser

/-- The tokens that the second parser has before it are those of the first without some at the
front. -/
def LeadsTo (p q : Parser) : Prop := p.ahead.LeadsTo q.ahead

instance : IsPreorder Parser LeadsTo where
  refl p := .refl p.ahead
  trans _ _ _ hpq hqr := TokenStream.LeadsTo.trans hpq hqr

end Parser

namespace Parse

variable {α : Type}

/-- Every run of the parser only takes tokens. -/
abbrev MovesOn (step : Parse α) : Prop := Respects Parser.LeadsTo step

/-! ## Steps on tokens -/

theorem movesOn_peek : MovesOn peek := by
  unfold peek
  refine respects_get.bind fun p => ?_
  cases p.ahead with
  | token first rest => exact respects_pure _
  | done position => exact respects_pure _
  | fault ch position => exact respects_throw _

theorem movesOn_skip : MovesOn skip :=
  respects_modify fun p => p.ahead.leadsTo_tail

theorem movesOn_position : MovesOn position :=
  respects_get.bind fun _ => respects_pure _

theorem movesOn_next : MovesOn next :=
  movesOn_peek.bind fun _ => movesOn_skip.bind fun _ => respects_pure _

theorem movesOn_refuse (words : List String) (position : Nat) :
    MovesOn (refuse words position : Parse α) :=
  respects_throw _

theorem movesOn_acceptOne? (options : List (String × α)) : MovesOn (acceptOne? options) := by
  unfold acceptOne?
  refine movesOn_peek.bind fun t => ?_
  cases t.bind (meaning? options) with
  | none => exact respects_pure _
  | some a => exact movesOn_skip.bind fun _ => respects_pure _

theorem movesOn_expectOne (options : List (String × α)) : MovesOn (expectOne options) := by
  unfold expectOne
  refine movesOn_position.bind fun start => movesOn_next.bind fun t => ?_
  cases t.bind (meaning? options) with
  | none => exact movesOn_refuse _ _
  | some a => exact respects_pure _

theorem movesOn_accept (word : String) : MovesOn (accept word) :=
  (movesOn_acceptOne? _).bind fun _ => respects_pure _

theorem movesOn_expect (word : String) : MovesOn (expect word) := movesOn_expectOne _

theorem movesOn_expectToken : MovesOn expectToken := by
  unfold expectToken
  refine movesOn_position.bind fun start => movesOn_next.bind fun t => ?_
  cases t with
  | none => exact movesOn_refuse _ _
  | some t => exact respects_pure _

theorem movesOn_expectName : MovesOn expectName :=
  movesOn_expectToken.bind fun _ => respects_pure _

theorem movesOn_expectEnd : MovesOn expectEnd := by
  unfold expectEnd
  refine movesOn_position.bind fun start => movesOn_next.bind fun t => ?_
  cases t with
  | none => exact respects_pure _
  | some t =>
      dsimp only
      split
      · exact respects_pure _
      · exact movesOn_refuse _ _

theorem movesOn_expectNumber : MovesOn expectNumber := by
  unfold expectNumber
  refine movesOn_position.bind fun start => movesOn_next.bind fun t => ?_
  cases t with
  | none => exact movesOn_refuse _ _
  | some t =>
      dsimp only
      split
      · split
        · exact respects_pure _
        · exact respects_throw _
      · exact movesOn_refuse _ _

theorem movesOn_separated {form : Parse α} (h : MovesOn form) (budget : Nat) :
    MovesOn (separated form budget) := by
  induction budget with
  | zero => exact respects_throw _
  | succ budget ih =>
      refine h.bind fun a => (movesOn_accept ",").bind fun more => ?_
      cases more with
      | false => exact respects_pure _
      | true => exact ih.bind fun _ => respects_pure _

theorem movesOn_commaSeparated {form : Parse α} (h : MovesOn form) :
    MovesOn (commaSeparated form) :=
  respects_get.bind fun _ => movesOn_separated h _

theorem movesOn_skipWords (words : List String) : MovesOn (skipWords words) := by
  have hgo : ∀ s : TokenStream, s.LeadsTo (skipWords.go words s) := by
    intro s
    induction s with
    | token first rest ih =>
        simp only [skipWords.go]
        split
        · exact .token first ih
        · exact .refl _
    | done position => exact .refl _
    | fault ch position => exact .refl _
  exact respects_modify fun p => hgo p.ahead

theorem movesOn_withSuffixes {form : Parse α} (h : MovesOn form) (on : Bool) :
    MovesOn (withSuffixes on form) := by
  intro p
  change p.ahead.LeadsTo (stateAfter (withSuffixes on form) p).ahead
  unfold stateAfter withSuffixes
  cases hr : form { p with suffixes := on } with
  | ok a q =>
      have hq : Parser.LeadsTo { p with suffixes := on } q := Respects.ok h hr
      exact hq
  | error e q =>
      have hq : Parser.LeadsTo { p with suffixes := on } q := Respects.error h hr
      exact hq

/-! ## What was taken -/

theorem peek_of_token {p : Parser} {first : Token} {rest : TokenStream}
    (h : p.ahead = .token first rest) : peek p = .ok (some first) p := by
  simp [peek, bind_apply_ok (get_apply p), h]

theorem peek_of_done {p : Parser} {position : Nat} (h : p.ahead = .done position) :
    peek p = .ok none p := by
  simp [peek, bind_apply_ok (get_apply p), h]

theorem peek_of_fault {p : Parser} {ch : Char} {position : Nat} (h : p.ahead = .fault ch position) :
    peek p = .error (.lexical ch position) p := by
  simp [peek, bind_apply_ok (get_apply p), h]

theorem position_apply (p : Parser) : position p = .ok p.position p := rfl

theorem skip_apply (p : Parser) : skip p = .ok ⟨⟩ { p with ahead := p.ahead.tail } := rfl

theorem skip_of_token {p : Parser} {first : Token} {rest : TokenStream}
    (h : p.ahead = .token first rest) : skip p = .ok ⟨⟩ { p with ahead := rest } := by
  simp [skip_apply, h, TokenStream.tail]

theorem skip_of_done {p : Parser} {position : Nat} (h : p.ahead = .done position) :
    skip p = .ok ⟨⟩ p := by
  cases p
  cases h
  rfl

/-- Looking at a token takes nothing. -/
theorem peek_eq_ok {p q : Parser} {t : Option Token} (h : peek p = .ok t q) :
    q = p ∧ ∀ first, t = some first → ∃ rest, p.ahead = .token first rest := by
  cases hp : p.ahead with
  | token first rest =>
      rw [peek_of_token hp] at h
      cases h
      exact ⟨rfl, fun first' h' => ⟨rest, by rw [Option.some.inj h']⟩⟩
  | done position =>
      rw [peek_of_done hp] at h
      cases h
      exact ⟨rfl, fun first h' => by cases h'⟩
  | fault ch position =>
      rw [peek_of_fault hp] at h
      cases h

/-- What a token means it means by one of the words. -/
theorem exists_of_meaning? {options : List (String × α)} {t : Token} {a : α}
    (h : meaning? options t = some a) : ∃ word, (word, a) ∈ options ∧ t.is word = true := by
  obtain ⟨option, hoption, hfound⟩ := List.exists_of_findSome?_eq_some h
  split at hfound
  · next hreads =>
      cases hfound
      exact ⟨option.1, hoption, hreads⟩
  · cases hfound

/-- Takes the next token if it means something, and gives what it means. -/
def takeIf (means : Token → Option α) : Parse (Option α) := do
  match (← peek).bind means with
  | some a => skip; return some a
  | none => return none

theorem takeIf_of_token {p : Parser} {first : Token} {rest : TokenStream}
    (h : p.ahead = .token first rest) (means : Token → Option α) :
    takeIf means p = match means first with
      | some a => .ok (some a) { p with ahead := rest }
      | none => .ok none p := by
  rw [takeIf, bind_apply_ok (peek_of_token h), Option.bind_some]
  cases means first with
  | none => rfl
  | some a =>
      dsimp only
      rw [bind_apply_ok (skip_of_token h), pure_apply]

/-- Taking a token that means something takes it, and nothing otherwise. -/
theorem takeIf_eq_ok {means : Token → Option α} {p q : Parser} {found : Option α}
    (h : takeIf means p = .ok found q) :
    found = none ∧ q = p ∨ ∃ a first rest, found = some a ∧ means first = some a ∧
      p.ahead = .token first rest ∧ q = { p with ahead := rest } := by
  obtain ⟨t, p', hpeek, hthen⟩ := bind_eq_ok.mp h
  obtain ⟨rfl, hfirst⟩ := peek_eq_ok hpeek
  cases hmeans : t.bind means with
  | none =>
      rw [hmeans] at hthen
      cases hthen
      exact .inl ⟨rfl, rfl⟩
  | some a =>
      rw [hmeans] at hthen
      obtain ⟨first, rfl, hfound⟩ := Option.bind_eq_some_iff.mp hmeans
      obtain ⟨rest, hrest⟩ := hfirst first rfl
      obtain ⟨_, p₁, hskip, hgiven⟩ := bind_eq_ok.mp hthen
      rw [skip_of_token hrest] at hskip
      cases hskip
      cases hgiven
      exact .inr ⟨a, first, rest, rfl, hfound, hrest, rfl⟩

theorem acceptOne?_of_token {p : Parser} {first : Token} {rest : TokenStream}
    (h : p.ahead = .token first rest) (options : List (String × α)) :
    acceptOne? options p = match meaning? options first with
      | some a => .ok (some a) { p with ahead := rest }
      | none => .ok none p :=
  takeIf_of_token h (meaning? options)

theorem acceptOne?_of_done {p : Parser} {n : Nat} (h : p.ahead = .done n)
    (options : List (String × α)) : acceptOne? options p = .ok none p := by
  rw [acceptOne?, bind_apply_ok (peek_of_done h)]
  rfl

theorem accept_of_done {p : Parser} {n : Nat} (h : p.ahead = .done n) (word : String) :
    accept word p = .ok false p := by
  rw [accept, bind_apply_ok (acceptOne?_of_done h _)]
  rfl

theorem accept_of_not_is {p : Parser} {first : Token} {rest : TokenStream} {word : String}
    (h : p.ahead = .token first rest) (hword : first.is word = false) :
    accept word p = .ok false p := by
  have hnone : acceptOne? [(word, ())] p = .ok none p := by
    have hmeaning : meaning? [(word, ())] first = none := by simp [meaning?, hword]
    rw [acceptOne?_of_token h, hmeaning]
  rw [accept, bind_apply_ok hnone]
  rfl

/-- Taking one of some words takes the next token if it is one of them, and nothing otherwise. -/
theorem acceptOne?_eq_ok {options : List (String × α)} {p q : Parser} {found : Option α}
    (h : acceptOne? options p = .ok found q) :
    found = none ∧ q = p ∨ ∃ a first rest, found = some a ∧ meaning? options first = some a ∧
      p.ahead = .token first rest ∧ q = { p with ahead := rest } :=
  takeIf_eq_ok h

theorem accept_eq_ok {word : String} {p q : Parser} {more : Bool}
    (h : accept word p = .ok more q) :
    more = false ∧ q = p ∨ more = true ∧ ∃ first rest, p.ahead = .token first rest ∧
      q = { p with ahead := rest } := by
  obtain ⟨found, p', hfound, hgiven⟩ := bind_eq_ok.mp h
  cases hgiven
  rcases acceptOne?_eq_ok hfound with ⟨rfl, rfl⟩ | ⟨a, first, rest, rfl, -, hrest, rfl⟩
  · exact .inl ⟨rfl, rfl⟩
  · exact .inr ⟨rfl, first, rest, hrest, rfl⟩

theorem next_of_token {p : Parser} {first : Token} {rest : TokenStream}
    (h : p.ahead = .token first rest) : next p = .ok (some first) { p with ahead := rest } := by
  rw [next, bind_apply_ok (peek_of_token h), bind_apply_ok (skip_of_token h), pure_apply]

theorem next_of_done {p : Parser} {position : Nat} (h : p.ahead = .done position) :
    next p = .ok none p := by
  rw [next, bind_apply_ok (peek_of_done h), bind_apply_ok (skip_of_done h), pure_apply]

theorem next_eq_ok {p q : Parser} {t : Option Token} (h : next p = .ok t q) :
    t = none ∧ q = p ∨ ∃ first rest, t = some first ∧ p.ahead = .token first rest ∧
      q = { p with ahead := rest } := by
  cases hp : p.ahead with
  | token first rest =>
      rw [next_of_token hp] at h
      cases h
      exact .inr ⟨first, rest, rfl, rfl, rfl⟩
  | done position =>
      rw [next_of_done hp] at h
      cases h
      exact .inl ⟨rfl, rfl⟩
  | fault ch position =>
      obtain ⟨t', p', hpeek, -⟩ := bind_eq_ok.mp h
      rw [peek_of_fault hp] at hpeek
      cases hpeek

/-- Taking one of some words that has to be there takes one token. -/
theorem expectOne_eq_ok {options : List (String × α)} {p q : Parser} {a : α}
    (h : expectOne options p = .ok a q) :
    ∃ first rest, meaning? options first = some a ∧ p.ahead = .token first rest ∧
      q = { p with ahead := rest } := by
  obtain ⟨start, p', hposition, hthen⟩ := bind_eq_ok.mp h
  cases hposition
  obtain ⟨t, p₁, hnext, hgiven⟩ := bind_eq_ok.mp hthen
  rcases next_eq_ok hnext with ⟨rfl, rfl⟩ | ⟨first, rest, rfl, hrest, rfl⟩
  · cases hgiven
  · cases hmeaning : meaning? options first with
    | none =>
        rw [Option.bind_some, hmeaning] at hgiven
        cases hgiven
    | some b =>
        rw [Option.bind_some, hmeaning] at hgiven
        cases hgiven
        exact ⟨first, rest, hmeaning, hrest, rfl⟩

/-- Taking any token takes one. -/
theorem expectToken_eq_ok {p q : Parser} {t : Token} (h : expectToken p = .ok t q) :
    ∃ rest, p.ahead = .token t rest ∧ q = { p with ahead := rest } := by
  obtain ⟨start, p', hposition, hthen⟩ := bind_eq_ok.mp h
  cases hposition
  obtain ⟨found, p₁, hnext, hgiven⟩ := bind_eq_ok.mp hthen
  rcases next_eq_ok hnext with ⟨rfl, rfl⟩ | ⟨first, rest, rfl, hahead, rfl⟩
  · cases hgiven
  · cases hgiven
    exact ⟨rest, hahead, rfl⟩

theorem expectEnd_of_token {p : Parser} {first : Token} {rest : TokenStream}
    (h : p.ahead = .token first rest) :
    expectEnd p = if first.is ";" then .ok ⟨⟩ { p with ahead := rest }
      else .error (.parse (.expected [";", "end of statement"]) p.position)
        { p with ahead := rest } := by
  rw [expectEnd, bind_apply_ok (position_apply p), bind_apply_ok (next_of_token h)]
  dsimp only
  split <;> rfl

theorem expectEnd_of_semicolon {p : Parser} {first : Token} {rest : TokenStream}
    (h : p.ahead = .token first rest) (hsign : first.is ";" = true) :
    expectEnd p = .ok ⟨⟩ { p with ahead := rest } := by
  rw [expectEnd_of_token h, if_pos hsign]

theorem expectEnd_of_done {p : Parser} {n : Nat} (h : p.ahead = .done n) :
    expectEnd p = .ok ⟨⟩ p := by
  rw [expectEnd, bind_apply_ok (position_apply p), bind_apply_ok (next_of_done h)]
  rfl

theorem expectEnd_of_fault {p : Parser} {ch : Char} {n : Nat} (h : p.ahead = .fault ch n) :
    expectEnd p = .error (.lexical ch n) p := by
  rw [expectEnd, bind_apply_ok (position_apply p)]
  exact bind_eq_error.mpr (.inl (bind_eq_error.mpr (.inl (peek_of_fault h))))

/-- The end of a statement is a semicolon or the end of the text. -/
theorem expectEnd_eq_ok {p q : Parser} (h : expectEnd p = .ok ⟨⟩ q) :
    (∃ position, p.ahead = .done position) ∨
      ∃ first rest, p.ahead = .token first rest ∧ first.is ";" = true := by
  cases hp : p.ahead with
  | fault ch position =>
      rw [expectEnd_of_fault hp] at h
      cases h
  | done position => exact .inl ⟨position, rfl⟩
  | token first rest =>
      cases hsign : first.is ";" with
      | true => exact .inr ⟨first, rest, rfl, hsign⟩
      | false =>
          rw [expectEnd_of_token hp, hsign] at h
          cases h

/-- No word but a semicolon is taken where a statement ends. -/
theorem accept_of_expectEnd {p q : Parser} (h : expectEnd p = .ok ⟨⟩ q) (word : String)
    (hword : Text.sameWord ";" word = false) : accept word p = .ok false p := by
  rcases expectEnd_eq_ok h with ⟨position, hp⟩ | ⟨first, rest, hp, hsign⟩
  · exact accept_of_done hp word
  · exact accept_of_not_is hp ((Text.sameWord_congr_left hsign word).trans hword)

/-! ## Operators -/

/-- The tokens behind an operator are fewer than those before it. -/
theorem behind_lt_of_token {s : TokenStream} {first : Token} {rest behind : TokenStream}
    (hs : s = .token first rest) (h : s.tail.LeadsTo behind) :
    s.LeadsTo behind ∧ behind.length < s.length := by
  subst hs
  have hle := h.length_le
  simp only [TokenStream.tail] at h hle
  exact ⟨.token first h, by simp only [TokenStream.length]; omega⟩

/-- Looking for an operator takes nothing, and the tokens behind one that is found are fewer. -/
theorem peekOperator?_eq_ok {p q : Parser} {found : Option (BinaryOp × TokenStream)}
    (h : peekOperator? p = .ok found q) :
    q = p ∧ ∀ op behind, found = some (op, behind) →
      p.ahead.LeadsTo behind ∧ behind.length < p.ahead.length := by
  unfold peekOperator? at h
  obtain ⟨t, p', hpeek, h⟩ := bind_eq_ok.mp h
  obtain ⟨rfl, hfirst⟩ := peek_eq_ok hpeek
  cases t with
  | none =>
      cases h
      exact ⟨rfl, fun op behind h => by cases h⟩
  | some first =>
      obtain ⟨rest, hrest⟩ := hfirst first rfl
      have hsingle : ∀ op behind,
          (meaning? singleSigns first).map (fun op => (op, p'.ahead.tail)) = some (op, behind) →
            p'.ahead.LeadsTo behind ∧ behind.length < p'.ahead.length := by
        intro op behind hop
        obtain ⟨op', -, he⟩ := Option.map_eq_some_iff.mp hop
        cases he
        exact behind_lt_of_token hrest (.refl _)
      obtain ⟨here, p₁, hget, h⟩ := bind_eq_ok.mp h
      cases hget
      split at h
      · cases h
        exact ⟨rfl, hsingle⟩
      · obtain ⟨_, p₂, hskip, h⟩ := bind_eq_ok.mp h
        obtain ⟨second, p₃, hsecond, h⟩ := bind_eq_ok.mp h
        obtain ⟨_, p₄, hresume, h⟩ := bind_eq_ok.mp h
        obtain ⟨rfl, -⟩ := peek_eq_ok hsecond
        cases hskip
        cases hresume
        cases hpair : second.bind (paired? first) with
        | some op =>
            simp only [hpair] at h
            cases h
            refine ⟨rfl, fun op behind hop => ?_⟩
            cases hop
            exact behind_lt_of_token hrest (TokenStream.leadsTo_tail _)
        | none =>
            simp only [hpair] at h
            cases h
            exact ⟨rfl, hsingle⟩

theorem movesOn_peekOperator? : MovesOn peekOperator? := by
  intro p
  cases h : peekOperator? p with
  | ok found q =>
      rw [stateAfter_of_ok h, (peekOperator?_eq_ok h).1]
      exact refl p
  | error e q =>
      -- a fault behind the first of two signs leaves that sign taken
      rw [stateAfter_of_error h]
      unfold peekOperator? at h
      rcases bind_eq_error.mp h with hpeek | ⟨t, p', hpeek, h⟩
      · exact movesOn_peek.error hpeek
      obtain ⟨rfl, -⟩ := peek_eq_ok hpeek
      cases t with
      | none => cases h
      | some first =>
          obtain hget | ⟨here, p₁, hget, h⟩ := bind_eq_error.mp h
          · cases hget
          cases hget
          split at h
          · cases h
          · obtain hskip | ⟨_, p₂, hskip, h⟩ := bind_eq_error.mp h
            · cases hskip
            obtain hsecond | ⟨second, p₃, hsecond, h⟩ := bind_eq_error.mp h
            · exact IsTrans.trans _ _ _ (movesOn_skip.ok hskip) (movesOn_peek.error hsecond)
            obtain hresume | ⟨_, p₄, hresume, h⟩ := bind_eq_error.mp h
            · cases hresume
            · cases hpair : second.bind (paired? first) <;> simp [hpair] at h

end Parse

end OnePassSql
