import OnePassSql.Proofs.Alike.Comparison

/-!
Token streams that read the same up to a place, each going on in its own way behind it. `Tails` says
which ways these can be, so that a parser that has not come to the place cannot tell them apart:
the end of both texts, or the same fault in both; a sign or word that ends whatever stands before
it; or the end of one text where the other goes on with a word that only starts a clause behind a
SELECT, or has a semicolon before its end.
-/

namespace OnePassSql

/-- The tokens read the same, wherever they stand. -/
structure Token.SameText (t u : Token) : Prop where
  kind : t.kind = u.kind
  text : t.text = u.text

namespace Token

variable {t u : Token}

theorem SameText.refl (t : Token) : t.SameText t := ⟨rfl, rfl⟩

theorem SameText.is_eq (h : t.SameText u) (word : String) : t.is word = u.is word := by
  rw [is, is, h.text]

theorem SameText.unquoted_eq (h : t.SameText u) : t.unquoted = u.unquoted := by
  rw [unquoted, unquoted, h.kind, h.text]

theorem SameText.name_eq (h : t.SameText u) : t.name = u.name := h.unquoted_eq

/-- The sign that ends a statement. -/
def IsSemicolon (t : Token) : Prop := t.kind = .symbol ∧ t.is ";" = true

theorem SameText.isSemicolon_iff (h : t.SameText u) : t.IsSemicolon ↔ u.IsSemicolon := by
  rw [IsSemicolon, IsSemicolon, h.kind, h.is_eq]

end Token

namespace TokenStream

/-- The next token stands directly behind `t`. A semicolon is never read in one with what stands
before it, so it does not count. -/
def Adjoins (t : Token) : TokenStream → Prop
  | token first _ => first.position = t.stop ∧ ¬first.IsSemicolon
  | _ => False

/-- The streams read the same, and with the same tokens side by side, until the first one has come
to `u` and the second one to `v`. -/
inductive Abreast (u v : TokenStream) : TokenStream → TokenStream → Prop where
  | last : Abreast u v u v
  | token {t t' : Token} {s s' : TokenStream} : t.SameText t' → (s.Adjoins t ↔ s'.Adjoins t') →
      Abreast u v s s' → Abreast u v (.token t s) (.token t' s')

variable {u v s s' : TokenStream}

theorem not_leadsTo_token (t : Token) (s : TokenStream) : ¬ s.LeadsTo (.token t s) := by
  intro h
  have hle := h.length_le
  simp only [length] at hle
  omega

theorem Abreast.leadsTo (h : Abreast u v s s') : s.LeadsTo u := by
  induction h with
  | last => exact .refl u
  | token _ _ _ ih => exact .token _ ih

/-- A stream that has come to the place goes with one that has come there as well. -/
theorem Abreast.eq_last (h : Abreast u v u s') : s' = v := by
  cases h with
  | last => rfl
  | token _ _ h => exact absurd h.leadsTo (not_leadsTo_token _ _)

/-- A stream that has ended has come to the place. -/
theorem Abreast.eq_of_done {n : Nat} (h : Abreast u v (.done n) s') : u = .done n ∧ v = s' := by
  cases h with
  | last => exact ⟨rfl, rfl⟩

/-- A place before the one up to which streams read the same is such a place itself. -/
theorem Abreast.split {u₁ : TokenStream} (h : Abreast u v s s') (hs : s.LeadsTo u₁)
    (hu : u₁.LeadsTo u) : ∃ v₁, Abreast u v u₁ v₁ ∧ Abreast u₁ v₁ s s' := by
  induction h with
  | last =>
      cases hs with
      | refl => exact ⟨v, .last, .last⟩
      | token first hrest => exact absurd (hrest.trans hu) (not_leadsTo_token first _)
  | @token t t' s s' htext hadjoins h ih =>
      cases hs with
      | refl => exact ⟨.token t' s', .token htext hadjoins h, .last⟩
      | token _ hrest =>
          obtain ⟨v₁, hlast, hbefore⟩ := ih hrest
          exact ⟨v₁, hlast, .token htext hadjoins hbefore⟩

/-! ## What stands behind -/

/-- The signs and the word that end whatever stands before them. -/
def closers : List String := [";", ")", "FROM"]

/-- The words that start a clause behind a whole SELECT. -/
def clauseWords : List String := ["ORDER", "LIMIT"]

/-- How two streams can go on behind what they have in common. -/
inductive Tails : TokenStream → TokenStream → Prop where
  | ended (n n' : Nat) : Tails (.done n) (.done n')
  | broken (ch : Char) (n n' : Nat) : Tails (.fault ch n) (.fault ch n')
  | closed {t t' : Token} {word : String} (s s') : t.SameText t' → word ∈ closers →
      t.is word = true → Tails (.token t s) (.token t' s')
  | clause {t : Token} {word : String} (n s) : word ∈ clauseWords → t.is word = true →
      Tails (.done n) (.token t s)
  | terminated {t : Token} (n m) : t.IsSemicolon → Tails (.done n) (.token t (.done m))

/-- The first stream has ended and the second one goes on with a clause behind a SELECT. -/
def BeforeClause (u v : TokenStream) : Prop :=
  (∃ n, u = .done n) ∧ ∃ t s, v = .token t s ∧ ∃ word ∈ clauseWords, t.is word = true

/-- Both streams go on with the same, if only for one sign, or the second one has a semicolon where
the first one ends. -/
structure WholeTails (u v : TokenStream) : Prop where
  tails : Tails u v
  not_beforeClause : ¬BeforeClause u v

/-- The faults of the first run that are those of the second one: all of them if both texts end or
have the same fault; if one ends where the other has a semicolon, those but the one of an end where
a token of any kind is due, since the semicolon is one. -/
inductive Shows (u v : TokenStream) (e : Fault) : Prop where
  | ended {n n' : Nat} : u = .done n → v = .done n' → Shows u v e
  | broken {ch : Char} {n n' : Nat} : u = .fault ch n → v = .fault ch n' → Shows u v e
  | terminated {n m : Nat} {t : Token} : u = .done n → v = .token t (.done m) → t.IsSemicolon →
      e.withoutPlace ≠ .parse (.expected ["Identifier"]) 0 → Shows u v e

theorem Shows.ending_eq {e : Fault} (h : Shows u v e) : u.ending = u := by
  cases h with
  | ended hu hv => rw [hu]; rfl
  | broken hu hv => rw [hu]; rfl
  | terminated hu hv hsemi he => rw [hu]; rfl

theorem not_shows_token {t : Token} {e : Fault} : ¬Shows (.token t s) v e :=
  fun h => ending_ne_token _ _ _ h.ending_eq

/-- A word that starts a clause is no semicolon. -/
theorem not_isSemicolon_of_clause {t : Token} {word : String} (hword : word ∈ clauseWords)
    (hreads : t.is word = true) : ¬t.IsSemicolon := by
  rintro ⟨-, hsemi⟩
  have hall : ∀ word ∈ clauseWords, Text.sameWord word ";" = false := by decide
  rw [Token.is, Text.sameWord_congr_left hreads, hall word hword] at hsemi
  cases hsemi

theorem not_shows_clause {t : Token} {n : Nat} {word : String} {e : Fault}
    (hword : word ∈ clauseWords) (hreads : t.is word = true) : ¬Shows (.done n) (.token t s) e := by
  intro h
  cases h with
  | ended _ hv => cases hv
  | broken _ hv => cases hv
  | terminated _ hv hsemi _ =>
      cases hv
      exact not_isSemicolon_of_clause hword hreads hsemi

/-- A token that is due where the first text ends can be the semicolon of the second one. -/
theorem not_shows_due {t : Token} {n m position : Nat} (hu : u = .done n)
    (hv : v = .token t (.done m)) : ¬Shows u v (.parse (.expected ["Identifier"]) position) := by
  subst hu hv
  intro h
  cases h with
  | ended _ hv => cases hv
  | broken _ hv => cases hv
  | terminated _ _ _ hdue => exact hdue rfl

theorem WholeTails.ended (n n' : Nat) : WholeTails (.done n) (.done n') where
  tails := .ended n n'
  not_beforeClause := by
    rintro ⟨-, t, s, hdone, -⟩
    cases hdone

theorem WholeTails.closed {t t' : Token} {word : String} (s s' : TokenStream)
    (htext : t.SameText t') (hword : word ∈ closers) (hreads : t.is word = true) :
    WholeTails (.token t s) (.token t' s') where
  tails := .closed s s' htext hword hreads
  not_beforeClause := by
    rintro ⟨⟨n, hdone⟩, -⟩
    cases hdone

theorem WholeTails.broken (ch : Char) (n n' : Nat) : WholeTails (.fault ch n) (.fault ch n') where
  tails := .broken ch n n'
  not_beforeClause := by
    rintro ⟨⟨m, hdone⟩, -⟩
    cases hdone

theorem WholeTails.terminated {t : Token} (n m : Nat) (h : t.IsSemicolon) :
    WholeTails (.done n) (.token t (.done m)) where
  tails := .terminated n m h
  not_beforeClause := by
    rintro ⟨-, t', s, hv, word, hword, hreads⟩
    cases hv
    exact not_isSemicolon_of_clause hword hreads h

/-- What is next in two streams that go abreast. -/
inductive Heads (u v : TokenStream) : TokenStream → TokenStream → Prop where
  | token {t t' s s'} : t.SameText t' → (s.Adjoins t ↔ s'.Adjoins t') → Abreast u v s s' →
      Heads u v (.token t s) (.token t' s')
  | ended {n n'} : u = .done n → v = .done n' → Heads u v (.done n) (.done n')
  | broken {ch n n'} : u = .fault ch n → v = .fault ch n' → Heads u v (.fault ch n) (.fault ch n')
  | closed {t t' s s' word} : u = .token t s → v = .token t' s' → t.SameText t' →
      word ∈ closers → t.is word = true → Heads u v (.token t s) (.token t' s')
  | clause {n t s word} : u = .done n → v = .token t s → word ∈ clauseWords → t.is word = true →
      Heads u v (.done n) (.token t s)
  | terminated {n m t} : u = .done n → v = .token t (.done m) → t.IsSemicolon →
      Heads u v (.done n) (.token t (.done m))

theorem Abreast.heads (h : Abreast u v s s') (htails : Tails u v) : Heads u v s s' := by
  cases h with
  | token htext hadjoins h => exact .token htext hadjoins h
  | last =>
      cases htails with
      | ended n n' => exact .ended rfl rfl
      | broken ch n n' => exact .broken rfl rfl
      | closed s s' htext hword hreads => exact .closed rfl rfl htext hword hreads
      | clause n s hword hreads => exact .clause rfl rfl hword hreads
      | terminated n m hsemi => exact .terminated rfl rfl hsemi

/-! ## Lists in parentheses -/

/-- How many parentheses are open behind the token; none if it closes the outermost one. -/
def depthBehind? (depth : Nat) (t : Token) : Option Nat :=
  if t.is ")" then if depth = 1 then none else some (depth - 1)
  else some (if t.is "(" then depth + 1 else depth)

theorem enclosed?_token (depth : Nat) (t : Token) (s : TokenStream) :
    (token t s).enclosed? depth = match depthBehind? depth t with
      | none => some ([], s)
      | some depth => (s.enclosed? depth).map fun r => (t :: r.1, r.2) := by
  unfold depthBehind?
  rw [enclosed?]
  repeat' split
  all_goals simp_all

theorem enclosed?_token_eq_some {t : Token} {s rest : TokenStream} {depth : Nat}
    {tokens : List Token} (h : (token t s).enclosed? depth = some (tokens, rest)) :
    depthBehind? depth t = none ∧ tokens = [] ∧ rest = s ∨
      ∃ depth' tokens', depthBehind? depth t = some depth' ∧ tokens = t :: tokens' ∧
        s.enclosed? depth' = some (tokens', rest) := by
  rw [enclosed?_token] at h
  cases hdepth : depthBehind? depth t with
  | none =>
      rw [hdepth] at h
      cases h
      exact .inl ⟨rfl, rfl, rfl⟩
  | some depth' =>
      rw [hdepth] at h
      obtain ⟨⟨tokens', _⟩, hs, he⟩ := Option.map_eq_some_iff.mp h
      cases he
      exact .inr ⟨depth', tokens', rfl, rfl, hs⟩

theorem depthBehind?_congr {t t' : Token} (h : t.SameText t') (depth : Nat) :
    depthBehind? depth t = depthBehind? depth t' := by
  simp only [depthBehind?, h.is_eq]

/-- Tokens in parentheses that are closed within the common ones have the same texts. -/
theorem Abreast.enclosed?_eq_some {rest : TokenStream} {tokens : List Token} {depth : Nat}
    (h : Abreast u v s s') (hs : s.enclosed? depth = some (tokens, rest)) (hrest : rest.LeadsTo u) :
    ∃ tokens' rest', s'.enclosed? depth = some (tokens', rest') ∧
      tokens.map Token.text = tokens'.map Token.text ∧ Abreast u v rest rest' := by
  induction h generalizing depth tokens with
  | last =>
      cases u with
      | done n => cases hs
      | fault ch n => cases hs
      | token t s =>
          have hbehind : s.LeadsTo rest := by
            rcases enclosed?_token_eq_some hs with ⟨-, -, rfl⟩ | ⟨_, _, -, -, hs⟩
            · exact .refl rest
            · exact leadsTo_of_enclosed? hs
          exact absurd (hbehind.trans hrest) (not_leadsTo_token t s)
  | @token t t' s s' htext hadjoins h ih =>
      rcases enclosed?_token_eq_some hs with
        ⟨hdepth, rfl, rfl⟩ | ⟨depth', tokens, hdepth, rfl, henclosed⟩
      · rw [enclosed?_token, ← depthBehind?_congr htext, hdepth]
        exact ⟨[], s', rfl, rfl, h⟩
      · obtain ⟨tokens', rest', hs', htexts, hrest'⟩ := ih henclosed
        rw [enclosed?_token, ← depthBehind?_congr htext, hdepth]
        refine ⟨t' :: tokens', rest', ?_, ?_, hrest'⟩
        · dsimp only
          rw [hs', Option.map_some]
        · rw [List.map_cons, List.map_cons, htext.text, htexts]

/-- Parentheses that are not closed in a first text are not in a second one that ends with it. -/
theorem Abreast.enclosed?_eq_none {depth : Nat} (h : Abreast u v s s')
    (hends : v.ending = v) (hs : s.enclosed? depth = none) : s'.enclosed? depth = none := by
  induction h generalizing depth with
  | last =>
      cases v with
      | token t s => exact absurd hends (ending_ne_token _ _ _)
      | done n => rfl
      | fault ch n => rfl
  | @token t t' s s' htext hadjoins h ih =>
      rw [enclosed?_token] at hs ⊢
      rw [← depthBehind?_congr htext]
      cases hdepth : depthBehind? depth t with
      | none =>
          rw [hdepth] at hs
          cases hs
      | some depth =>
          rw [hdepth] at hs
          exact Option.map_eq_none_iff.mpr (ih (Option.map_eq_none_iff.mp hs))

theorem Abreast.endings (h : Abreast u v s s') :
    s.ending = u.ending ∧ s'.ending = v.ending := by
  induction h with
  | last => exact ⟨rfl, rfl⟩
  | token _ _ _ ih => exact ih

theorem LeadsTo.ending_eq (h : s.LeadsTo s') : s.ending = s'.ending := by
  induction h with
  | refl s => rfl
  | token first _ ih => exact ih

end TokenStream

namespace Parser

variable {u v : TokenStream}

/-- Parsers before streams that go abreast, with nothing else to tell them apart. -/
structure Abreast (u v : TokenStream) (p q : Parser) : Prop where
  ahead : TokenStream.Abreast u v p.ahead q.ahead
  cursor : p.cursor = q.cursor
  suffixes : p.suffixes = q.suffixes

/-- Runs of two parsers are compared up to the places `u` and `v`, and faults only if the texts end
there alike. -/
def comparison (u v : TokenStream) : Step.Comparison Parser where
  ahead := Parser.ahead
  last := u
  alike := Abreast u v
  shows := TokenStream.Shows u v
  afterFault _ _ := True
  leadsTo_last h := h.ahead.leadsTo
  last_ends := TokenStream.Shows.ending_eq
  afterFault_of_alike _ := trivial

end Parser

namespace Parse

open Step

variable {α : Type}

/-- The step does the same on parsers that go abreast. -/
abbrev ActsAlike (u v : TokenStream) (step : Parse α) : Prop :=
  RunsAlike (Parser.comparison u v) Eq step step

end Parse

theorem Step.RunsAlike.movesOn {α β : Type} {u v : TokenStream} {V : α → β → Prop}
    {step : Parse α} {step' : Parse β} (h : RunsAlike (Parser.comparison u v) V step step') :
    Parse.MovesOn step :=
  h.moves

end OnePassSql
