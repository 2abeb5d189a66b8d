import OnePassSql.Proofs.Alike.Streams

/-!
Steps of the parser act alike on tokens that go abreast: they look at the texts of tokens and at
which of them stand side by side, and never beyond a sign that closes what is read.
-/

namespace OnePassSql.Parse

open Step TokenStream

variable {α β : Type} {u v : TokenStream}

/-! ## Steps that look at the next token -/

/-- A character that no token starts with is the fault of the step, if it is next. -/
def LooksFirst (x : Parse α) : Prop :=
  ∀ (p : Parser) (ch : Char) (n : Nat), p.ahead = .fault ch n → x p = .error (.lexical ch n) p

theorem LooksFirst.bind {x : Parse α} (hx : LooksFirst x) (f : α → Parse β) :
    LooksFirst (x >>= f) :=
  fun p ch n h => bind_eq_error.mpr (.inl (hx p ch n h))

theorem looksFirst_peek : LooksFirst peek := fun _ _ _ h => peek_of_fault h

theorem looksFirst_next : LooksFirst next := looksFirst_peek.bind _

theorem looksFirst_position_bind {f : Nat → Parse α} (hf : ∀ start, LooksFirst (f start)) :
    LooksFirst (position >>= f) := by
  intro p ch n h
  rw [bind_apply_ok (position_apply p)]
  exact hf _ p ch n h

theorem looksFirst_acceptOne? (options : List (String × α)) : LooksFirst (acceptOne? options) :=
  looksFirst_peek.bind _

theorem looksFirst_peekOperator? : LooksFirst peekOperator? := looksFirst_peek.bind _

/-- Both runs meet the same fault. -/
theorem follows_of_broken {V : α → β → Prop} {x : Parse α} {y : Parse β} (hx : LooksFirst x)
    (hy : LooksFirst y) {p q : Parser} {ch : Char} {n n' : Nat} (hp : p.ahead = .fault ch n)
    (hq : q.ahead = .fault ch n') : Follows (Parser.comparison u v) V (x p) (y q) := by
  rw [hx p ch n hp, hy q ch n' hq]
  exact fun _ => ⟨_, _, rfl, rfl, trivial⟩

/-! ## Words -/

theorem meaning?_congr {t w : Token} (h : ∀ word, t.is word = w.is word)
    (options : List (String × α)) : meaning? options t = meaning? options w := by
  simp only [meaning?, h]

/-- What a token means is a matter of the word that it reads as. -/
theorem meaning?_of_is {t : Token} {word : String} (h : t.is word = true)
    (options : List (String × α)) : meaning? options t = meaning? options ⟨.word, word, 0⟩ :=
  meaning?_congr (w := ⟨.word, word, 0⟩) (Text.sameWord_congr_left h) options

theorem meaning?_of_sameText {t t' : Token} (h : t.SameText t') (options : List (String × α)) :
    meaning? options t = meaning? options t' :=
  meaning?_congr h.is_eq options

theorem meaning?_self (word : String) (a : α) :
    meaning? [(word, a)] ⟨.word, word, 0⟩ = some a := by
  simp [meaning?, Token.is, Text.sameWord]

section OfIs

variable {p : Parser} {first : Token} {rest : TokenStream} {word : String}
  {options : List (String × α)}

/-- What a token that reads as the word means among the options is decided by the word. -/
theorem acceptOne?_of_is (h : p.ahead = .token first rest) (hword : first.is word = true)
    (hnone : meaning? options ⟨.word, word, 0⟩ = none) : acceptOne? options p = .ok none p := by
  rw [acceptOne?_of_token h, meaning?_of_is hword, hnone]

theorem acceptOne?_eq_some_of_is {a : α} (h : p.ahead = .token first rest)
    (hword : first.is word = true) (ha : meaning? options ⟨.word, word, 0⟩ = some a) :
    acceptOne? options p = .ok (some a) { p with ahead := rest } := by
  rw [acceptOne?_of_token h, meaning?_of_is hword, ha]

theorem accept_of_is (h : p.ahead = .token first rest) (hword : first.is word = true) :
    accept word p = .ok true { p with ahead := rest } := by
  rw [accept, bind_apply_ok (acceptOne?_eq_some_of_is h hword (meaning?_self word ()))]
  rfl

theorem accept_of_is_other (h : p.ahead = .token first rest) (hword : first.is word = true)
    {other : String} (hother : Text.sameWord word other = false) :
    accept other p = .ok false p :=
  accept_of_not_is h ((Text.sameWord_congr_left hword other).trans hother)

end OfIs

/-- If only the second stream goes on, then with a word that is none of the options. -/
def Passes (u v : TokenStream) (options : List (String × α)) : Prop :=
  (∃ n, u = .done n) → ∀ t s, v = .token t s → meaning? options t = none

/-- The words that can come where the first stream ends are none of the options. -/
theorem passes_of_tails (h : Tails u v) {options : List (String × α)}
    (hnone : ∀ word ∈ ";" :: clauseWords, meaning? options ⟨.word, word, 0⟩ = none) :
    Passes u v options := by
  rintro ⟨n, rfl⟩ t s rfl
  cases h with
  | clause _ _ hword hreads =>
      rw [meaning?_of_is hreads, hnone _ (List.mem_cons_of_mem _ hword)]
  | terminated _ _ hsemi => rw [meaning?_of_is hsemi.2, hnone _ List.mem_cons_self]

/-- What is taken is alike, unless only the second stream goes on, and with one of the options. -/
theorem follows_acceptOne? (h : Tails u v) {options : List (String × α)} {p q : Parser}
    (hs : p.Abreast u v q)
    (hpass : (∃ n, p.ahead = .done n) → ∀ t s, q.ahead = .token t s → meaning? options t = none) :
    Follows (Parser.comparison u v) Eq (acceptOne? options p) (acceptOne? options q) := by
  obtain ⟨s, cursor, suffixes⟩ := p
  obtain ⟨s', cursor', suffixes'⟩ := q
  obtain ⟨hs, rfl, rfl⟩ := hs
  dsimp only at hs hpass
  cases hs.heads h with
  | token htext hadjoins hrest =>
      rw [acceptOne?_of_token rfl, acceptOne?_of_token rfl, meaning?_of_sameText htext]
      cases meaning? options _ with
      | none => exact fun _ => ⟨_, _, rfl, rfl, hs, rfl, rfl⟩
      | some a => exact fun _ => ⟨_, _, rfl, rfl, hrest, rfl, rfl⟩
  | ended hu hv =>
      rw [acceptOne?_of_done rfl, acceptOne?_of_done rfl]
      exact fun _ => ⟨_, _, rfl, rfl, hs, rfl, rfl⟩
  | broken hu hv =>
      exact follows_of_broken (looksFirst_acceptOne? _) (looksFirst_acceptOne? _) rfl rfl
  | closed hu hv htext hword hreads =>
      rw [acceptOne?_of_token rfl, acceptOne?_of_token rfl, meaning?_of_sameText htext]
      cases meaning? options _ with
      | none => exact fun _ => ⟨_, _, rfl, rfl, hs, rfl, rfl⟩
      | some a =>
          intro hview
          subst hu
          exact absurd hview (not_leadsTo_token _ _)
  | clause hu hv hword hreads =>
      rw [acceptOne?_of_done rfl, acceptOne?_of_token rfl, hpass ⟨_, rfl⟩ _ _ rfl]
      exact fun _ => ⟨_, _, rfl, rfl, hs, rfl, rfl⟩
  | terminated hu hv hsemi =>
      rw [acceptOne?_of_done rfl, acceptOne?_of_token rfl, hpass ⟨_, rfl⟩ _ _ rfl]
      exact fun _ => ⟨_, _, rfl, rfl, hs, rfl, rfl⟩

theorem actsAlike_acceptOne? (h : Tails u v) {options : List (String × α)}
    (hpass : Passes u v options) : ActsAlike u v (acceptOne? options) := by
  refine ⟨movesOn_acceptOne? options, fun hs => follows_acceptOne? h hs ?_⟩
  rintro ⟨n, hdone⟩ t rest htoken
  have hlast := hs.ahead
  rw [hdone, htoken] at hlast
  exact hpass ⟨n, hlast.eq_of_done.1⟩ t rest hlast.eq_of_done.2

theorem actsAlike_accept (h : Tails u v) {word : String} (hpass : Passes u v [(word, ())]) :
    ActsAlike u v (accept word) :=
  (actsAlike_acceptOne? h hpass).bind fun _ => runsAlike_pure rfl

/-! ## Steps that take a token in any case -/

/-- Takes the next token and makes something of it and its place. -/
def takeNext (make : Nat → Token → Except Fault α) (missing : Nat → Fault) : Parse α := do
  let start ← position
  match ← next with
  | some t => settle (make start t)
  | none => throw (missing start)

theorem takeNext_of_token {p : Parser} {first : Token} {rest : TokenStream}
    (h : p.ahead = .token first rest) (make : Nat → Token → Except Fault α)
    (missing : Nat → Fault) :
    takeNext make missing p = settle (make p.position first) { p with ahead := rest } := by
  rw [takeNext, bind_apply_ok (position_apply p), bind_apply_ok (next_of_token h)]

theorem takeNext_of_done {p : Parser} {n : Nat} (h : p.ahead = .done n)
    (make : Nat → Token → Except Fault α) (missing : Nat → Fault) :
    takeNext make missing p = .error (missing p.position) p := by
  rw [takeNext, bind_apply_ok (position_apply p), bind_apply_ok (next_of_done h)]
  rfl

/-- Making something of the next token takes it. -/
theorem takeNext_eq_ok {p q : Parser} {make : Nat → Token → Except Fault α}
    {missing : Nat → Fault} {a : α} (h : takeNext make missing p = .ok a q) :
    ∃ t, p.ahead = .token t q.ahead ∧ make p.position t = .ok a := by
  obtain ⟨start, p', hposition, h⟩ := bind_eq_ok.mp h
  cases hposition
  obtain ⟨t, p₁, hnext, h⟩ := bind_eq_ok.mp h
  rcases next_eq_ok hnext with ⟨rfl, rfl⟩ | ⟨first, rest, rfl, hrest, rfl⟩
  · cases h
  · obtain ⟨hmake, rfl⟩ := settle_eq_ok.mp h
    exact ⟨first, hrest, hmake⟩

theorem movesOn_takeNext (make : Nat → Token → Except Fault α) (missing : Nat → Fault) :
    MovesOn (takeNext make missing) := by
  refine movesOn_position.bind fun start => movesOn_next.bind fun t => ?_
  cases t with
  | some t => exact respects_settle _
  | none => exact respects_throw _

theorem looksFirst_takeNext (make : Nat → Token → Except Fault α) (missing : Nat → Fault) :
    LooksFirst (takeNext make missing) :=
  looksFirst_position_bind fun _ => looksFirst_next.bind _

/-- Where one text ends, and the other has a semicolon, the token that is missing in the first one
is refused in the second one, if it is not any token that is due. -/
theorem runsAlike_takeNext {V : α → β → Prop} (h : Tails u v)
    {make : Nat → Token → Except Fault α} {make' : Nat → Token → Except Fault β}
    {missing missing' : Nat → Fault}
    (hmake : ∀ start start' t t', t.SameText t' →
      RunsAlike (Parser.comparison u v) V (settle (make start t)) (settle (make' start' t')))
    (hmissing : ∀ start start', (missing start).withoutPlace = (missing' start').withoutPlace)
    (hsemicolon : ∀ start start' t, t.IsSemicolon →
      (missing start).withoutPlace ≠ .parse (.expected ["Identifier"]) 0 →
        make' start' t = .error (missing' start')) :
    RunsAlike (Parser.comparison u v) V (takeNext make missing) (takeNext make' missing') := by
  refine ⟨movesOn_takeNext make missing, ?_⟩
  rintro ⟨s, cursor, suffixes⟩ ⟨s', cursor', suffixes'⟩ ⟨hs, rfl, rfl⟩
  dsimp only at hs
  cases hs.heads h with
  | token htext hadjoins hrest =>
      rw [takeNext_of_token rfl, takeNext_of_token rfl]
      exact (hmake _ _ _ _ htext).follows ⟨hrest, rfl, rfl⟩
  | ended hu hv =>
      rw [takeNext_of_done rfl, takeNext_of_done rfl]
      exact fun _ => ⟨_, _, rfl, hmissing _ _, trivial⟩
  | broken hu hv =>
      exact follows_of_broken (looksFirst_takeNext _ _) (looksFirst_takeNext _ _) rfl rfl
  | closed hu hv htext hword hreads =>
      subst hu
      rw [takeNext_of_token rfl]
      cases make _ _ with
      | ok a => exact fun hview => absurd hview (not_leadsTo_token _ _)
      | error fault => exact fun hshow => absurd hshow not_shows_token
  | clause hu hv hword hreads =>
      subst hu hv
      rw [takeNext_of_done rfl]
      exact fun hshow => absurd hshow (not_shows_clause hword hreads)
  | terminated hu hv hsemi =>
      subst hu hv
      rw [takeNext_of_done rfl, takeNext_of_token rfl]
      intro hshow
      cases hshow with
      | ended _ hv => cases hv
      | broken _ hv => cases hv
      | terminated _ _ _ hdue =>
          rw [hsemicolon _ _ _ hsemi hdue]
          exact ⟨_, _, rfl, hmissing _ _, trivial⟩

theorem expectOne_eq_takeNext (options : List (String × α)) :
    expectOne options = takeNext
      (fun start t => match meaning? options t with
        | some a => .ok a
        | none => .error (.parse (.expected (options.map Prod.fst)) start))
      fun start => .parse (.expected (options.map Prod.fst)) start := by
  funext p
  refine bind_congr rfl fun start _ _ => bind_congr rfl fun t q _ => ?_
  cases t with
  | none => rfl
  | some t =>
      dsimp only [Option.bind_some]
      cases meaning? options t <;> rfl

theorem expectOne_of_is {p : Parser} {first : Token} {rest : TokenStream} {word : String} {a : α}
    {options : List (String × α)} (h : p.ahead = .token first rest) (hword : first.is word = true)
    (ha : meaning? options ⟨.word, word, 0⟩ = some a) :
    expectOne options p = .ok a { p with ahead := rest } := by
  rw [expectOne_eq_takeNext, takeNext_of_token h, meaning?_of_is hword, ha]
  rfl

theorem actsAlike_expectOne (h : Tails u v) {options : List (String × α)}
    (hsemicolon : meaning? options ⟨.word, ";", 0⟩ = none) : ActsAlike u v (expectOne options) := by
  rw [expectOne_eq_takeNext]
  refine runsAlike_takeNext h (fun start start' t t' htext => ?_) (fun _ _ => rfl)
    fun _ _ t hsemi _ => ?_
  · rw [meaning?_of_sameText htext]
    cases meaning? options t' with
    | none => exact runsAlike_throw rfl
    | some a => exact runsAlike_pure rfl
  · rw [meaning?_of_is hsemi.2, hsemicolon]

theorem actsAlike_expect (h : Tails u v) {word : String}
    (hsemicolon : Text.sameWord ";" word = false) : ActsAlike u v (expect word) :=
  actsAlike_expectOne h (by simp [meaning?, Token.is, hsemicolon])

theorem expectToken_eq_takeNext :
    expectToken
      = takeNext (fun _ t => .ok t) fun start => .parse (.expected ["Identifier"]) start := by
  funext p
  refine bind_congr rfl fun start _ _ => bind_congr rfl fun t q _ => ?_
  cases t <;> rfl

theorem runsAlike_expectToken (h : Tails u v) :
    RunsAlike (Parser.comparison u v) Token.SameText expectToken expectToken := by
  rw [expectToken_eq_takeNext]
  exact runsAlike_takeNext h (fun _ _ _ _ htext => runsAlike_pure htext) (fun _ _ => rfl)
    fun _ _ _ _ hdue => absurd rfl hdue

/-- What follows a token that is taken depends on its text only. -/
theorem runsAlike_expectToken_bind {V : β → β → Prop} (h : Tails u v) {f : Token → Parse β}
    (hf : ∀ t t' : Token, t.SameText t' → RunsAlike (Parser.comparison u v) V (f t) (f t')) :
    RunsAlike (Parser.comparison u v) V (expectToken >>= f) (expectToken >>= f) :=
  (runsAlike_expectToken h).bind_of_total (fun t => ⟨t, .refl t⟩) hf

theorem actsAlike_expectName (h : Tails u v) : ActsAlike u v expectName :=
  runsAlike_expectToken_bind h fun _ _ htext => runsAlike_pure htext.name_eq

theorem expectNumber_eq_takeNext :
    expectNumber = takeNext
      (fun start t =>
        if t.kind = .number then
          match integerOfText? t.text with
          | some n => .ok n
          | none => .error (.parse .numberOutOfRange start)
        else .error (.parse (.expected ["Number"]) start))
      fun start => .parse (.expected ["Number"]) start := by
  funext p
  refine bind_congr rfl fun start _ _ => bind_congr rfl fun t q _ => ?_
  cases t with
  | none => rfl
  | some t =>
      dsimp only
      split
      · cases integerOfText? t.text <;> rfl
      · rfl

theorem expectString_eq_takeNext :
    expectString = takeNext
      (fun start t =>
        if t.kind = .string then .ok t.unquoted else .error (.parse (.expected ["String"]) start))
      fun start => .parse (.expected ["String"]) start := by
  funext p
  refine bind_congr rfl fun start _ _ => bind_congr rfl fun t q _ => ?_
  cases t with
  | none => rfl
  | some t =>
      dsimp only
      split <;> rfl

theorem actsAlike_expectNumber (h : Tails u v) : ActsAlike u v expectNumber := by
  rw [expectNumber_eq_takeNext]
  refine runsAlike_takeNext h (fun start start' t t' htext => ?_) (fun _ _ => rfl)
    fun _ _ t hsemi _ => ?_
  · rw [htext.kind, htext.text]
    split
    · cases integerOfText? t'.text with
      | none => exact runsAlike_throw rfl
      | some n => exact runsAlike_pure rfl
    · exact runsAlike_throw rfl
  · rw [hsemi.1, if_neg (by decide)]

end OnePassSql.Parse
