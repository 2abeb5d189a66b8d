import OnePassSql.Proofs.Token.Tokenisation

/-!
A lexer stands at an index of the tokens of its text. Advancing moves on by one, pushing back once or
more often moves back by one, a fault moves nothing, and a checkpoint remembers the index. Nothing
else shows: what is handed out next, and where that stands, follows from the index alone. Behind the
last token every index means the end of the text, or the character that no token starts with.
-/

namespace OnePassSql

/-! ## Tokens by their index -/

/-- What a lexer hands out at an index of the tokens. -/
def answerAt (tokens : List Token) (fault? : Option Fault) (k : Nat) :
    Except Fault (Option Token) :=
  match tokens[k]?, fault? with
  | some t, _ => .ok (some t)
  | none, some fault => .error fault
  | none, none => .ok none

/-- Where that stands in a text of the given length. -/
def placeAt (length : Nat) (tokens : List Token) (fault? : Option Fault) (k : Nat) : Nat :=
  match tokens[k]?, fault? with
  | some t, _ => t.position
  | none, some (.lexical _ n) => n
  | none, _ => length

namespace TokenStream

/-- The tokens from an index on. -/
def drop : Nat → TokenStream → TokenStream
  | 0, s => s
  | k + 1, s => drop k s.tail

theorem tail_drop (k : Nat) (s : TokenStream) : (drop k s).tail = drop (k + 1) s := by
  induction k generalizing s with
  | zero => rfl
  | succ k ih => exact ih s.tail

/-- What is handed out first. -/
def answer : TokenStream → Except Fault (Option Token)
  | token first _ => .ok (some first)
  | done _ => .ok none
  | fault ch n => .error (.lexical ch n)

theorem answer_drop (k : Nat) (s : TokenStream) :
    (drop k s).answer = answerAt s.toList s.fault? k := by
  induction s generalizing k with
  | token first rest ih =>
      cases k with
      | zero => rfl
      | succ k => exact ih k
  | done n =>
      induction k with
      | zero => rfl
      | succ k ihk => exact ihk
  | fault ch n =>
      induction k with
      | zero => rfl
      | succ k ihk => exact ihk

theorem position_drop (k : Nat) (s : TokenStream) {length : Nat}
    (h : ∀ n, s.ending = .done n → n = length) :
    (drop k s).position = placeAt length s.toList s.fault? k := by
  induction s generalizing k with
  | token first rest ih =>
      cases k with
      | zero => rfl
      | succ k => exact ih k h
  | done n =>
      induction k with
      | zero => exact h n rfl
      | succ k ihk => exact ihk
  | fault ch n =>
      induction k with
      | zero => rfl
      | succ k ihk => exact ihk

end TokenStream

/-! ## Lexers in use -/

/-- What a step did to a lexer. -/
inductive LexerEvent where
  | advanced | failed | pushedBack
deriving DecidableEq

namespace LexerEvent

/-- The index that a lexer stands at after what was done to it, the latest first. -/
def index : List LexerEvent → Nat
  | [] => 0
  | advanced :: before => index before + 1
  | failed :: before => index before
  | pushedBack :: before =>
    if before.head? = some pushedBack then index before else index before - 1

/-- The latest advance succeeded. -/
def latestSucceeded : List LexerEvent → Bool
  | [] => false
  | advanced :: _ => true
  | failed :: _ => false
  | pushedBack :: before => latestSucceeded before

end LexerEvent

/-- A step with a lexer. Checkpoints are named by their number. -/
inductive LexerStep where
  | advance | pushBack | checkpoint
  | restore (mark : Nat)
deriving DecidableEq

/-- A lexer in use, with what was done to it and the checkpoints taken so far. A checkpoint is the
lexer as it was, and with it goes what had been done to it. -/
structure UsedLexer where
  lexer : Lexer
  events : List LexerEvent
  marks : List (Lexer × List LexerEvent)
deriving DecidableEq

namespace UsedLexer

open LexerEvent

/-- The lexer before any step. -/
def ofText (sql : String) : UsedLexer := ⟨.ofText sql, [], []⟩

/-- One step, if it is allowed: a token is only pushed back if the latest advance succeeded, and a
checkpoint must have been taken. -/
def step (u : UsedLexer) : LexerStep → Option UsedLexer
  | .advance =>
    match u.lexer.advance with
    | (.ok _, l) => some { u with lexer := l, events := advanced :: u.events }
    | (.error _, l) => some { u with lexer := l, events := failed :: u.events }
  | .pushBack =>
    if latestSucceeded u.events then
      some { u with lexer := u.lexer.pushBack, events := pushedBack :: u.events }
    else none
  | .checkpoint => some { u with marks := u.marks ++ [(u.lexer, u.events)] }
  | .restore mark => u.marks[mark]?.map fun m => { u with lexer := m.1, events := m.2 }

/-- Steps one after the other, if they are allowed. -/
def steps (u : UsedLexer) : List LexerStep → Option UsedLexer
  | [] => some u
  | s :: rest => (u.step s).bind fun v => v.steps rest

end UsedLexer

namespace Lexer

/-- The answers of a number of advances. -/
def answers : Nat → Lexer → List (Except Fault (Option Token))
  | 0, _ => []
  | n + 1, l => l.advance.1 :: answers n l.advance.2

open TokenStream

/-- Where a lexer stands in the tokens, by what was done to it last. -/
inductive StandsAt (s : TokenStream) : Lexer → List LexerEvent → Prop where
  | start (current : Option Token) : StandsAt s ⟨s, current, false⟩ []
  | failed (current : Option Token) (before : List LexerEvent) :
      StandsAt s ⟨s.drop (LexerEvent.index before), current, false⟩ (.failed :: before)
  | advanced {current : Option Token} {before : List LexerEvent} :
      (s.drop (LexerEvent.index before)).answer = .ok current →
      StandsAt s ⟨s.drop (LexerEvent.index before + 1), current, false⟩ (.advanced :: before)
  | pushedBack {current : Option Token} {before : List LexerEvent} {k : Nat} :
      LexerEvent.index (.pushedBack :: before) = k → (s.drop k).answer = .ok current →
      StandsAt s ⟨s.drop (k + 1), current, true⟩ (.pushedBack :: before)

variable {s : TokenStream} {l : Lexer} {events : List LexerEvent}

/-! ## One step -/

theorem advance_drop_of_ok {k : Nat} {a : Option Token} (h : (s.drop k).answer = .ok a)
    (current : Option Token) :
    (⟨s.drop k, current, false⟩ : Lexer).advance = (.ok a, ⟨s.drop (k + 1), a, false⟩) := by
  rw [← tail_drop]
  cases hs : s.drop k with
  | token first rest =>
      rw [hs] at h
      cases h
      rfl
  | done n =>
      rw [hs] at h
      cases h
      rfl
  | fault ch n =>
      rw [hs] at h
      cases h

theorem advance_drop_of_error {k : Nat} {f : Fault} (h : (s.drop k).answer = .error f)
    (current : Option Token) : (⟨s.drop k, current, false⟩ : Lexer).advance
      = (.error f, ⟨s.drop k, current, false⟩) := by
  cases hs : s.drop k with
  | token first rest =>
      rw [hs] at h
      cases h
  | done n =>
      rw [hs] at h
      cases h
  | fault ch n =>
      rw [hs] at h
      cases h
      rfl

/-- A lexer has read up to its index, or one token further with this token to come again. -/
theorem StandsAt.reads_or_repeats (h : StandsAt s l events) :
    (∃ current, l = ⟨s.drop (LexerEvent.index events), current, false⟩) ∨
      ∃ current, (s.drop (LexerEvent.index events)).answer = .ok current ∧
        l = ⟨s.drop (LexerEvent.index events + 1), current, true⟩ := by
  cases h with
  | start current => exact .inl ⟨current, rfl⟩
  | failed current before => exact .inl ⟨current, rfl⟩
  | advanced hcurrent => exact .inl ⟨_, rfl⟩
  | pushedBack hk hcurrent =>
      subst hk
      exact .inr ⟨_, hcurrent, rfl⟩

/-- A lexer hands out what stands at its index. -/
theorem StandsAt.advance_of_ok (h : StandsAt s l events) {a : Option Token}
    (ha : (s.drop (LexerEvent.index events)).answer = .ok a) :
    l.advance.1 = .ok a ∧ StandsAt s l.advance.2 (.advanced :: events) := by
  rcases h.reads_or_repeats with ⟨current, rfl⟩ | ⟨current, hcurrent, rfl⟩
  · rw [advance_drop_of_ok ha]
    exact ⟨rfl, .advanced ha⟩
  · cases hcurrent.symm.trans ha
    exact ⟨rfl, .advanced ha⟩

/-- A fault is met again and again, and moves nothing. -/
theorem StandsAt.advance_of_error (h : StandsAt s l events) {f : Fault}
    (hf : (s.drop (LexerEvent.index events)).answer = .error f) :
    l.advance.1 = .error f ∧ StandsAt s l.advance.2 (.failed :: events) := by
  rcases h.reads_or_repeats with ⟨current, rfl⟩ | ⟨current, hcurrent, -⟩
  · rw [advance_drop_of_error hf]
    exact ⟨rfl, .failed current events⟩
  · cases hcurrent.symm.trans hf

/-- Pushing back goes back to the token handed out last, and then stays there. -/
theorem StandsAt.pushBack (h : StandsAt s l events)
    (hlast : LexerEvent.latestSucceeded events = true) :
    StandsAt s l.pushBack (.pushedBack :: events) := by
  cases h with
  | start current => cases hlast
  | failed current before => cases hlast
  | advanced hcurrent => exact .pushedBack rfl hcurrent
  | pushedBack hk hcurrent => exact .pushedBack hk hcurrent

theorem StandsAt.position (h : StandsAt s l events) :
    l.position = (s.drop (LexerEvent.index events)).position := by
  rcases h.reads_or_repeats with ⟨current, rfl⟩ | ⟨current, hcurrent, rfl⟩
  · cases current <;> rfl
  · rw [Lexer.position, ← tail_drop]
    cases hs : s.drop (LexerEvent.index events) with
    | token first rest =>
        rw [hs] at hcurrent
        cases hcurrent
        rfl
    | done n =>
        rw [hs] at hcurrent
        cases hcurrent
        rfl
    | fault ch n =>
        rw [hs] at hcurrent
        cases hcurrent

/-! ## Many steps -/

theorem drop_of_answer_eq_error {k : Nat} {f : Fault} (h : (s.drop k).answer = .error f) :
    ∀ j, k ≤ j → (s.drop j).answer = .error f := by
  intro j hj
  induction j, hj using Nat.le_induction with
  | base => exact h
  | succ j _ ih =>
      rw [← tail_drop]
      cases hs : s.drop j with
      | token first rest => rw [hs] at ih; cases ih
      | done n => rw [hs] at ih; cases ih
      | fault ch n => rwa [hs] at ih

/-- Whatever was done to a lexer, it hands out what stands from its index on. -/
theorem StandsAt.answers (h : StandsAt s l events) (n : Nat) :
    l.answers n
      = (List.range' (LexerEvent.index events) n).map fun k => (s.drop k).answer := by
  induction n generalizing l events with
  | zero => rfl
  | succ n ih =>
      rw [Lexer.answers, List.range'_succ, List.map_cons]
      cases ha : (s.drop (LexerEvent.index events)).answer with
      | ok a =>
          obtain ⟨hanswer, hstands⟩ := h.advance_of_ok ha
          rw [hanswer, ih hstands]
          rfl
      | error f =>
          obtain ⟨hanswer, hstands⟩ := h.advance_of_error ha
          rw [hanswer, ih hstands, LexerEvent.index]
          have hsame := drop_of_answer_eq_error ha
          congr 1
          rw [List.range'_eq_map_range, List.range'_eq_map_range, List.map_map, List.map_map]
          apply List.map_congr_left
          intro j _
          rw [Function.comp_apply, Function.comp_apply, hsame _ (by omega), hsame _ (by omega)]

end Lexer

namespace UsedLexer

/-- The lexer and all its checkpoints stand where what was done to them says. -/
def Stands (s : TokenStream) (u : UsedLexer) : Prop :=
  u.lexer.StandsAt s u.events ∧ ∀ m ∈ u.marks, m.1.StandsAt s m.2

theorem Stands.step {s : TokenStream} {u v : UsedLexer} (h : u.Stands s) {action : LexerStep}
    (hstep : u.step action = some v) : v.Stands s := by
  obtain ⟨hlexer, hmarks⟩ := h
  cases action with
  | advance =>
      cases ha : (s.drop (LexerEvent.index u.events)).answer with
      | ok a =>
          obtain ⟨hanswer, hstands⟩ := hlexer.advance_of_ok ha
          rw [UsedLexer.step, show u.lexer.advance = (.ok a, u.lexer.advance.2) from
            Prod.ext hanswer rfl] at hstep
          cases hstep
          exact ⟨hstands, hmarks⟩
      | error f =>
          obtain ⟨hanswer, hstands⟩ := hlexer.advance_of_error ha
          rw [UsedLexer.step, show u.lexer.advance = (.error f, u.lexer.advance.2) from
            Prod.ext hanswer rfl] at hstep
          cases hstep
          exact ⟨hstands, hmarks⟩
  | pushBack =>
      rw [UsedLexer.step] at hstep
      split at hstep
      · next hlast =>
          cases hstep
          exact ⟨hlexer.pushBack hlast, hmarks⟩
      · cases hstep
  | checkpoint =>
      cases hstep
      refine ⟨hlexer, fun m hm => ?_⟩
      rcases List.mem_append.mp hm with hm | hm
      · exact hmarks m hm
      · rw [List.mem_singleton.mp hm]
        exact hlexer
  | restore mark =>
      obtain ⟨m, hm, rfl⟩ := Option.map_eq_some_iff.mp hstep
      exact ⟨hmarks m (List.mem_of_getElem? hm), hmarks⟩

theorem Stands.steps {s : TokenStream} {u v : UsedLexer} (h : u.Stands s)
    {actions : List LexerStep} (hsteps : u.steps actions = some v) : v.Stands s := by
  induction actions generalizing u with
  | nil =>
      cases hsteps
      exact h
  | cons action rest ih =>
      obtain ⟨w, hstep, hrest⟩ := Option.bind_eq_some_iff.mp hsteps
      exact ih (h.step hstep) hrest

theorem stands_ofText (sql : String) : (ofText sql).Stands (.ofText sql) :=
  ⟨.start none, by simp [ofText]⟩

/-- Whatever was done to the lexer of a text, what it hands out from now on and its position are
given by one index: it counts the advances that succeeded, less one for each time that a token was
pushed back, and goes back to what it was with each checkpoint. -/
theorem answers_from_index (sql : String) : ∃ tokens fault?,
    IsTokenisation sql.toList tokens fault? ∧
    ∀ actions u, (ofText sql).steps actions = some u →
      (∀ n, u.lexer.answers n
        = (List.range' (LexerEvent.index u.events) n).map (answerAt tokens fault?)) ∧
      u.lexer.position = placeAt sql.length tokens fault? (LexerEvent.index u.events) := by
  refine ⟨(TokenStream.ofText sql).toList, (TokenStream.ofText sql).fault?,
    isTokenisation_cut sql.toList, fun actions u hsteps => ?_⟩
  obtain ⟨hstands, -⟩ := (stands_ofText sql).steps hsteps
  have hend : ∀ n, (TokenStream.ofText sql).ending = .done n → n = sql.length := by
    intro n hn
    rw [TokenStream.eq_of_ending_cut hn, Nat.zero_add, String.length_toList]
  constructor
  · intro n
    rw [hstands.answers]
    exact List.map_congr_left fun k _ => TokenStream.answer_drop k _
  · rw [hstands.position, TokenStream.position_drop _ _ hend]

/-- A checkpoint of a token that was pushed back twice, restored behind a fault, and the token pushed
back once more. -/
theorem answers_from_index_restored :
    let actions : List LexerStep := [.advance, .checkpoint, .advance, .pushBack, .pushBack,
      .checkpoint, .advance, .advance, .restore 1, .pushBack]
    ∃ tokens fault? u, IsTokenisation "a b /".toList tokens fault? ∧
      (ofText "a b /").steps actions = some u ∧
      LexerEvent.index u.events = 1 ∧ u.lexer.position = 2 ∧ placeAt 5 tokens fault? 1 = 2 ∧
      u.lexer.answers 3 = [answerAt tokens fault? 1, answerAt tokens fault? 2,
        answerAt tokens fault? 3] := by
  intro actions
  obtain ⟨tokens, fault?, htokens, hruns⟩ := answers_from_index "a b /"
  have hrun : ((ofText "a b /").steps actions).map
      (fun u => (LexerEvent.index u.events, u.lexer.position)) = some (1, 2) := by
    decide +kernel
  obtain ⟨u, hu, hshown⟩ := Option.map_eq_some_iff.mp hrun
  obtain ⟨hindex, hposition⟩ := Prod.mk.inj hshown
  obtain ⟨hanswers, hplace⟩ := hruns actions u hu
  rw [hindex, hposition] at hplace
  rw [hindex] at hanswers
  exact ⟨tokens, fault?, u, htokens, hu, hindex, hposition, hplace.symm, hanswers 3⟩

end UsedLexer

end OnePassSql
