import OnePassSql.Proofs.Token.Cursor
import OnePassSql.Proofs.Parser.LeastInteger
import OnePassSql.Proofs.Parser.MembershipLists

/-!
A parser that reads from a lexer. It cannot look at a token without taking it, so it gives tokens
back: one by pushing it back, two or three by going back to a checkpoint. Each of its steps performs
the step on the stream of tokens that the lexer is going to hand out. So a step that does not match
leaves what is to come as it was, whichever way it went back, and also if the lexer held a token
that had been pushed back before.
-/

namespace OnePassSql

/-! ## What a lexer is going to hand out -/

namespace Lexer

open TokenStream

/-- The tokens that are handed out from now on, the one that comes again first. -/
def stream (l : Lexer) : TokenStream :=
  match l.current, l.pushedBack with
  | some t, true => .token t l.ahead
  | _, _ => l.ahead

/-- Where no token is to come again, the text has ended. -/
def Settled (l : Lexer) : Prop :=
  l.pushedBack = true → l.current = none → ∃ n, l.ahead = .done n

/-- The second lexer is the first one behind the given tokens: advancing the first hands out these
tokens, and then it stands where the second one does and hands out the same. -/
def Passes : List Token → Lexer → Lexer → Prop
  | [], l, l' => l'.position = l.position ∧ ∀ n, l'.answers n = l.answers n
  | t :: tokens, l, l' => l.advance.1 = .ok (some t) ∧ Passes tokens l.advance.2 l'

variable {l l' : Lexer} {t : Token} {rest : TokenStream}

theorem settled_of_ahead (s : TokenStream) (current : Option Token) :
    Settled ⟨s, current, false⟩ := nofun

theorem settled_pushBack (s : TokenStream) (t : Token) : Settled ⟨s, some t, true⟩ := nofun

theorem settled_pushBack_done (n : Nat) : Settled ⟨.done n, none, true⟩ := fun _ _ => ⟨n, rfl⟩

theorem position_stream (l : Lexer) : l.position = l.stream.position := by
  obtain ⟨s, current, pushedBack⟩ := l
  cases current <;> cases pushedBack <;> rfl

theorem advance_of_token (h : l.Settled) (hs : l.stream = .token t rest) :
    l.advance = (.ok (some t), ⟨rest, some t, false⟩) := by
  obtain ⟨s, current, pushedBack⟩ := l
  cases pushedBack with
  | false =>
      have hs : s = .token t rest := by cases current <;> exact hs
      subst hs
      rfl
  | true =>
      cases current with
      | some u =>
          cases hs
          rfl
      | none =>
          obtain ⟨n, rfl⟩ := h rfl rfl
          cases hs

theorem advance_of_done {n : Nat} (hs : l.stream = .done n) :
    l.advance = (.ok none, ⟨.done n, none, false⟩) := by
  obtain ⟨s, current, pushedBack⟩ := l
  cases current <;> cases pushedBack <;> cases hs <;> rfl

theorem advance_of_fault (h : l.Settled) {ch : Char} {n : Nat} (hs : l.stream = .fault ch n) :
    l.advance = (.error (.lexical ch n), l) := by
  obtain ⟨s, current, pushedBack⟩ := l
  cases pushedBack with
  | false =>
      have hs : s = .fault ch n := by cases current <;> exact hs
      subst hs
      rfl
  | true =>
      cases current with
      | some u => cases hs
      | none =>
          obtain ⟨m, rfl⟩ := h rfl rfl
          cases hs

theorem stream_of_advance (h : l.Settled) (ha : l.advance.1 = .ok (some t)) :
    ∃ rest, l.stream = .token t rest := by
  cases hs : l.stream with
  | token u rest =>
      rw [advance_of_token h hs] at ha
      cases ha
      exact ⟨rest, rfl⟩
  | done n =>
      rw [advance_of_done hs] at ha
      cases ha
  | fault ch n =>
      rw [advance_of_fault h hs] at ha
      cases ha

/-- Lexers that are going to hand out the same tokens cannot be told apart. -/
theorem answers_congr (h : l.Settled) (h' : l'.Settled) (hs : l.stream = l'.stream) (n : Nat) :
    l.answers n = l'.answers n := by
  induction n with
  | zero => rfl
  | succ n ih =>
      rw [answers, answers]
      cases hstream : l'.stream with
      | token t rest =>
          rw [advance_of_token h (hs.trans hstream), advance_of_token h' hstream]
      | done m => rw [advance_of_done (hs.trans hstream), advance_of_done hstream]
      | fault ch m =>
          rw [advance_of_fault h (hs.trans hstream), advance_of_fault h' hstream, ih]

theorem passes_of_prepend {tokens : List Token} (h : l.Settled) (h' : l'.Settled)
    (hs : l.stream = prepend tokens l'.stream) : l.Passes tokens l' := by
  induction tokens generalizing l with
  | nil =>
      refine ⟨?_, fun n => answers_congr h' h hs.symm n⟩
      rw [position_stream, position_stream]
      exact congrArg TokenStream.position hs.symm
  | cons t tokens ih =>
      have hadvance := advance_of_token h hs
      rw [Passes, hadvance]
      exact ⟨rfl, ih (settled_of_ahead _ _) rfl⟩

end Lexer

/-! ## A parser on a lexer -/

/-- A parser that reads from a lexer. -/
structure Scanner where
  lexer : Lexer
  cursor : Nat
  suffixes : Bool
deriving DecidableEq

/-- A step of a parser that reads from a lexer. -/
abbrev Scan := EStateM Fault Scanner

namespace Scanner

/-- Before the first token of a text. -/
def ofText (sql : String) : Scanner := ⟨.ofText sql, 0, true⟩

/-- The parser that has the tokens ahead that the lexer is going to hand out. -/
def parser (s : Scanner) : Parser := ⟨s.lexer.stream, s.cursor, s.suffixes⟩

/-- The lexer is settled. -/
abbrev Settled (s : Scanner) : Prop := s.lexer.Settled

end Scanner

namespace Scan

open Parse (meaning? held? singleSigns pairedSigns paired?)

variable {α β : Type}

/-! ## Steps on tokens -/

/-- The position of the next token. -/
def position : Scan Nat := return (← get).lexer.position

/-- Takes the next token and gives it, none at the end. -/
def next : Scan (Option Token) := fun s =>
  match s.lexer.advance with
  | (.ok t, l) => .ok t { s with lexer := l }
  | (.error e, l) => .error e { s with lexer := l }

/-- Lets the token taken last come again. -/
def pushBack : Scan Unit := modify fun s => { s with lexer := s.lexer.pushBack }

/-- What to go back to. -/
def checkpoint : Scan Lexer := return (← get).lexer

/-- Goes back to a checkpoint. The cursor and the forms stay as they are. -/
def restore (mark : Lexer) : Scan Unit := modify fun s => { s with lexer := mark }

/-- Refuses what stands at `position`. -/
def refuse (words : List String) (position : Nat) : Scan α :=
  throw (.parse (.expected words) position)

/-- Takes one of the words and gives its meaning. Another token is pushed back, or refused if none
is accepted. -/
def oneOf (options : List (String × α)) (acceptOther : Bool) : Scan (Option α) := do
  let start ← position
  match (← next).bind (meaning? options) with
  | some a => return some a
  | none =>
    if acceptOther then
      pushBack
      return none
    else refuse (options.map Prod.fst) start

/-- Takes the word, or refuses what stands there. -/
def expect (word : String) : Scan Unit := do
  let _ ← oneOf [(word, ())] false
  return

/-- Takes the word if it is next. -/
def accept (word : String) : Scan Bool :=
  return (← oneOf [(word, ())] true).isSome

/-- Takes the next token if it means something. Another token is pushed back. -/
def takeIf (means : Token → Option α) : Scan (Option α) := do
  match (← next).bind means with
  | some a => return some a
  | none =>
    pushBack
    return none

/-- Takes the next token if it holds one of the fragments, and gives the meaning of the first that
it holds. -/
def holding? (fragments : List (String × α)) : Scan (Option α) :=
  takeIf (held? fragments)

/-- Looks at the next token, and pushes it back in any case. -/
def look (view : Option Token → α) : Scan α := do
  let t ← next
  pushBack
  return view t

/-- The next token is one of the words. -/
def isNext (words : List String) : Scan Bool :=
  look fun t => t.any fun t => words.any t.is

/-- No token is left. -/
def atEnd : Scan Bool :=
  look Option.isNone

/-- Takes any token. -/
def expectToken : Scan Token := do
  let start ← position
  match ← next with
  | some t => return t
  | none => refuse ["Identifier"] start

/-- Takes any token and gives its text. -/
def expectText : Scan String := do
  let t ← expectToken
  return t.text

/-- Takes a number token that fits 64 bits. -/
def expectNumber : Scan Int64 := do
  let start ← position
  match ← next with
  | some t =>
    if t.kind = .number then
      match integerOfText? t.text with
      | some n => return n
      | none => throw (.parse .numberOutOfRange start)
    else refuse ["Number"] start
  | none => refuse ["Number"] start

/-- Takes a text token and gives the text without its quotes. -/
def expectString : Scan String := do
  let start ← position
  match ← next with
  | some t => if t.kind = .string then return t.unquoted else refuse ["String"] start
  | none => refuse ["String"] start

/-- Takes the end of a statement: a semicolon, or nothing at the end of the text. -/
def expectEnd : Scan Unit := do
  let start ← position
  match ← next with
  | some t => if t.is ";" then return else refuse [";", "end of statement"] start
  | none => return

/-! ## Operators -/

/-- Takes the sign that makes an operator together with the one before it. -/
def secondSign? (first : Token) : Scan (Option BinaryOp) := do
  let behindFirst ← checkpoint
  match (← next).bind (paired? first) with
  | some op => return some op
  | none =>
    restore behindFirst
    return none

/-- Takes an operator if it is next, and gives it with the checkpoint before it. -/
def operator? : Scan (Option (BinaryOp × Lexer)) := do
  let mark ← checkpoint
  match ← next with
  | none =>
    restore mark
    return none
  | some first =>
    let paired ← if (pairedSigns first).isEmpty then pure none else secondSign? first
    match paired.or (meaning? singleSigns first) with
    | some op => return some (op, mark)
    | none =>
      restore mark
      return none

/-- The least integer behind its minus, if no operator follows. An operator that is found is put
back first, and then the digits before it. -/
def leastInteger? (minus : Token) : Scan (Option Expr) := do
  let mark ← checkpoint
  match ← next with
  | none =>
    restore mark
    return none
  | some t =>
    if t.kind = .number ∧ t.position = minus.position + 1
        ∧ Binary64.digitsValue t.text.toList = Nat.pow 2 63 then
      match ← operator? with
      | some (_, before) =>
        restore before
        restore mark
        return none
      | none => return some (.literal (.integer Int64.minValue))
    else
      restore mark
      return none

/-! ## Performing the steps on a stream -/

/-- The runs end alike: with the same result or fault, a lexer that is settled, and the tokens ahead
that it is going to hand out. -/
inductive EndsAs : EStateM.Result Fault Scanner α → EStateM.Result Fault Parser α → Prop
  | ok (a : α) {s : Scanner} {p : Parser} : s.Settled → s.parser = p → EndsAs (.ok a s) (.ok a p)
  | error (e : Fault) {s : Scanner} {p : Parser} : s.Settled → s.parser = p →
      EndsAs (.error e s) (.error e p)

/-- On a lexer the first step does what the second does on the tokens that the lexer is going to
hand out. -/
def Performs (x : Scan α) (y : Parse α) : Prop :=
  ∀ ⦃s : Scanner⦄, s.Settled → EndsAs (x s) (y s.parser)

section

open Step

variable {s t : Scanner} {p : Parser} {x : Scan α} {y : Parse α}

theorem EndsAs.bind {f : α → Scan β} {g : α → Parse β} (h : EndsAs (x s) (y p))
    (hf : ∀ a t, x s = .ok a t → t.Settled → EndsAs (f a t) (g a t.parser)) :
    EndsAs ((x >>= f) s) ((y >>= g) p) := by
  generalize hx : x s = result at h
  generalize hy : y p = result' at h
  cases h with
  | ok a hsettled hparser =>
      subst hparser
      rw [bind_apply_ok hx, bind_apply_ok hy]
      exact hf a _ hx hsettled
  | error e hsettled hparser =>
      rw [bind_eq_error.mpr (.inl hx), bind_eq_error.mpr (.inl hy)]
      exact .error e hsettled hparser

theorem Performs.bind {f : α → Scan β} {g : α → Parse β} (h : Performs x y)
    (hf : ∀ a, Performs (f a) (g a)) : Performs (x >>= f) (y >>= g) :=
  fun _ hs => (h hs).bind fun a _ _ ht => hf a ht

theorem performs_pure (a : α) : Performs (pure a) (pure a) := fun _ hs => .ok a hs rfl

theorem performs_throw (e : Fault) : Performs (throw e : Scan α) (throw e) :=
  fun _ hs => .error e hs rfl

theorem Performs.eq_ok (h : Performs x y) (hs : s.Settled) {a : α} (hx : x s = .ok a t) :
    y s.parser = .ok a t.parser ∧ t.Settled := by
  have hends := h hs
  generalize hy : y s.parser = result at hends
  rw [hx] at hends
  cases hends with
  | ok _ hsettled hparser => exact ⟨by rw [hparser], hsettled⟩

theorem performs_position : Performs position Parse.position := by
  intro s hs
  have hposition : s.lexer.position = s.parser.position := Lexer.position_stream s.lexer
  rw [Parse.position_apply, ← hposition]
  exact .ok _ hs rfl

theorem position_apply (s : Scanner) : position s = .ok s.lexer.position s := rfl

theorem checkpoint_apply (s : Scanner) : checkpoint s = .ok s.lexer s := rfl

theorem restore_apply (mark : Lexer) (s : Scanner) :
    restore mark s = .ok ⟨⟩ { s with lexer := mark } := rfl

theorem next_of_token (hs : s.Settled) {t : Token} {rest : TokenStream}
    (h : s.lexer.stream = .token t rest) :
    next s = .ok (some t) ⟨⟨rest, some t, false⟩, s.cursor, s.suffixes⟩ := by
  rw [next, Lexer.advance_of_token hs h]

theorem next_of_done {n : Nat} (h : s.lexer.stream = .done n) :
    next s = .ok none ⟨⟨.done n, none, false⟩, s.cursor, s.suffixes⟩ := by
  rw [next, Lexer.advance_of_done h]

theorem next_of_fault (hs : s.Settled) {ch : Char} {n : Nat} (h : s.lexer.stream = .fault ch n) :
    next s = .error (.lexical ch n) s := by
  rw [next, Lexer.advance_of_fault hs h]

theorem performs_next : Performs next Parse.next := by
  intro s hs
  cases h : s.lexer.stream with
  | token t rest =>
      rw [next_of_token hs h, Parse.next_of_token (p := s.parser) h]
      exact .ok _ (Lexer.settled_of_ahead _ _) rfl
  | done n =>
      rw [next_of_done h, Parse.next_of_done (p := s.parser) h]
      exact .ok _ (Lexer.settled_of_ahead _ _) (congrArg (Parser.mk · _ _) h.symm)
  | fault ch n =>
      rw [next_of_fault hs h, Parse.next,
        bind_eq_error.mpr (.inl (Parse.peek_of_fault (p := s.parser) h))]
      exact .error _ hs rfl

/-- A token that was taken and a look at it. -/
theorem endsAs_next_bind (hs : s.Settled) {f : Option Token → Scan α} {g : Option Token → Parse α}
    (htoken : ∀ t rest, s.lexer.stream = .token t rest →
      EndsAs (f (some t) ⟨⟨rest, some t, false⟩, s.cursor, s.suffixes⟩) (g (some t) s.parser))
    (hdone : ∀ n, s.lexer.stream = .done n →
      EndsAs (f none ⟨⟨.done n, none, false⟩, s.cursor, s.suffixes⟩) (g none s.parser)) :
    EndsAs ((next >>= f) s) ((Parse.peek >>= g) s.parser) := by
  cases h : s.lexer.stream with
  | token t rest =>
      rw [bind_apply_ok (next_of_token hs h), bind_apply_ok (Parse.peek_of_token (p := s.parser) h)]
      exact htoken t rest h
  | done n =>
      rw [bind_apply_ok (next_of_done h), bind_apply_ok (Parse.peek_of_done (p := s.parser) h)]
      exact hdone n h
  | fault ch n =>
      rw [bind_eq_error.mpr (.inl (next_of_fault hs h)),
        bind_eq_error.mpr (.inl (Parse.peek_of_fault (p := s.parser) h))]
      exact .error _ hs rfl

/-- The tokens that a lexer is going to hand out are all that a parser shows of it. -/
theorem parser_of_stream {l : Lexer} (h : s.lexer.stream = l.stream) :
    (⟨l, s.cursor, s.suffixes⟩ : Scanner).parser = s.parser :=
  congrArg (Parser.mk · s.cursor s.suffixes) h.symm

/-- A token that is pushed back is ahead again. -/
theorem endsAs_pushBack (a : α) {t : Token} {rest : TokenStream}
    (h : s.lexer.stream = .token t rest) :
    EndsAs (.ok a ⟨⟨rest, some t, true⟩, s.cursor, s.suffixes⟩) (.ok a s.parser) :=
  .ok a (Lexer.settled_pushBack rest t) (parser_of_stream h)

/-- Pushing back the end leaves the end. -/
theorem endsAs_pushBack_done (a : α) {n : Nat} (h : s.lexer.stream = .done n) :
    EndsAs (.ok a ⟨⟨.done n, none, true⟩, s.cursor, s.suffixes⟩) (.ok a s.parser) :=
  .ok a (Lexer.settled_pushBack_done n) (parser_of_stream h)

theorem performs_look (view : Option Token → α) :
    Performs (look view) (Parse.peek >>= fun t => return view t) := by
  intro s hs
  refine endsAs_next_bind hs (fun t rest h => ?_) fun n h => ?_
  · exact endsAs_pushBack _ h
  · exact endsAs_pushBack_done _ h

theorem performs_takeIf (means : Token → Option α) :
    Performs (takeIf means) (Parse.takeIf means) := by
  intro s hs
  refine endsAs_next_bind hs (fun t rest h => ?_) fun n h => ?_
  · rw [Option.bind_some]
    cases means t with
    | some a =>
        dsimp only
        rw [bind_apply_ok (Parse.skip_of_token (p := s.parser) h)]
        exact .ok _ (Lexer.settled_of_ahead _ _) rfl
    | none => exact endsAs_pushBack _ h
  · exact endsAs_pushBack_done _ h

theorem performs_isNext (words : List String) : Performs (isNext words) (Parse.isNext words) :=
  performs_look _

theorem performs_atEnd : Performs atEnd Parse.atEnd := performs_look _

theorem performs_holding? (fragments : List (String × α)) :
    Performs (holding? fragments) (Parse.acceptHolding? fragments) :=
  performs_takeIf (held? fragments)

theorem performs_oneOf (options : List (String × α)) :
    Performs (oneOf options true) (Parse.acceptOne? options) :=
  fun _ hs => performs_takeIf (meaning? options) hs

/-- One of the words that has to be there, and what follows. -/
theorem performs_oneOf_bind {options : List (String × β)} {f : Option β → Scan α}
    {g : β → Parse α} (h : ∀ b, Performs (f (some b)) (g b)) :
    Performs (oneOf options false >>= f) (Parse.expectOne options >>= g) := by
  rw [oneOf, Parse.expectOne, bind_assoc, bind_assoc]
  refine performs_position.bind fun start => ?_
  rw [bind_assoc, bind_assoc]
  refine performs_next.bind fun t => ?_
  cases t.bind (meaning? options) with
  | some b =>
      rw [pure_bind, pure_bind]
      exact h b
  | none => exact fun _ hs => .error _ hs rfl

theorem performs_oneOf_or_refuse (options : List (String × α)) :
    Performs (oneOf options false) (some <$> Parse.expectOne options) := by
  rw [← bind_pure (oneOf options false), map_eq_pure_bind]
  exact performs_oneOf_bind fun a => performs_pure (some a)

theorem performs_accept (word : String) : Performs (accept word) (Parse.accept word) :=
  (performs_oneOf _).bind fun _ => performs_pure _

theorem performs_expect (word : String) : Performs (expect word) (Parse.expect word) := by
  rw [Parse.expect, ← bind_pure (Parse.expectOne _)]
  exact performs_oneOf_bind fun _ => performs_pure ()

theorem performs_expectToken : Performs expectToken Parse.expectToken := by
  refine performs_position.bind fun start => performs_next.bind fun t => ?_
  cases t with
  | some t => exact performs_pure t
  | none => exact performs_throw _

theorem performs_expectNumber : Performs expectNumber Parse.expectNumber := by
  refine performs_position.bind fun start => performs_next.bind fun t => ?_
  cases t with
  | none => exact performs_throw _
  | some t =>
      dsimp only
      split
      · cases integerOfText? t.text with
        | some n => exact performs_pure n
        | none => exact performs_throw _
      · exact performs_throw _

theorem performs_expectString : Performs expectString Parse.expectString := by
  refine performs_position.bind fun start => performs_next.bind fun t => ?_
  cases t with
  | none => exact performs_throw _
  | some t =>
      dsimp only
      split
      · exact performs_pure _
      · exact performs_throw _

theorem performs_expectEnd : Performs expectEnd Parse.expectEnd := by
  refine performs_position.bind fun start => performs_next.bind fun t => ?_
  cases t with
  | none => exact performs_pure _
  | some t =>
      dsimp only
      split
      · exact performs_pure _
      · exact performs_throw _

/-! ## Operators that are put back -/

theorem secondSign?_of_token (first : Token) {t : Token} {rest : TokenStream} (hs : s.Settled)
    (h : s.lexer.stream = .token t rest) :
    secondSign? first s = match paired? first t with
      | some op => .ok (some op) ⟨⟨rest, some t, false⟩, s.cursor, s.suffixes⟩
      | none => .ok none s := by
  rw [secondSign?, bind_apply_ok (checkpoint_apply s), bind_apply_ok (next_of_token hs h),
    Option.bind_some]
  cases paired? first t <;> rfl

theorem secondSign?_of_done (first : Token) {n : Nat} (h : s.lexer.stream = .done n) :
    secondSign? first s = .ok none s := by
  rw [secondSign?, bind_apply_ok (checkpoint_apply s), bind_apply_ok (next_of_done h)]
  rfl

theorem secondSign?_of_fault (first : Token) {ch : Char} {n : Nat} (hs : s.Settled)
    (h : s.lexer.stream = .fault ch n) : secondSign? first s = .error (.lexical ch n) s := by
  rw [secondSign?, bind_apply_ok (checkpoint_apply s)]
  exact bind_eq_error.mpr (.inl (next_of_fault hs h))

/-- What taking an operator does where looking for one takes nothing: an operator comes with the
lexer before it, and leaves the lexer behind it; without one the state is as it was. -/
inductive FindsOperator (s : Scanner) :
    EStateM.Result Fault Scanner (Option (BinaryOp × Lexer)) →
      EStateM.Result Fault Parser (Option (BinaryOp × TokenStream)) → Prop
  | none : FindsOperator s (.ok none s) (.ok none s.parser)
  | some (op : BinaryOp) {l : Lexer} : l.Settled →
      FindsOperator s (.ok (some (op, s.lexer)) ⟨l, s.cursor, s.suffixes⟩)
        (.ok (some (op, l.stream)) s.parser)
  | error (e : Fault) {t : Scanner} : t.Settled →
      FindsOperator s (.error e t) (.error e t.parser)

/-- The operator of one sign, with no second sign behind it. -/
theorem findsOperator_single {first : Token} {rest : TokenStream} :
    FindsOperator s
      ((match (none : Option BinaryOp).or (meaning? singleSigns first) with
        | some op => pure (some (op, s.lexer))
        | none => restore s.lexer >>= fun _ => pure none : Scan (Option (BinaryOp × Lexer)))
        ⟨⟨rest, some first, false⟩, s.cursor, s.suffixes⟩)
      (.ok ((meaning? singleSigns first).map fun op => (op, rest)) s.parser) := by
  rw [Option.none_or]
  cases meaning? singleSigns first with
  | some op => exact .some op (Lexer.settled_of_ahead rest (some first))
  | none => exact .none

theorem findsOperator (hs : s.Settled) :
    FindsOperator s (operator? s) (Parse.peekOperator? s.parser) := by
  rw [operator?, bind_apply_ok (checkpoint_apply s)]
  cases h : s.lexer.stream with
  | done n =>
      rw [bind_apply_ok (next_of_done h), Parse.peekOperator?_of_done (p := s.parser) h]
      exact .none
  | fault ch n =>
      rw [bind_eq_error.mpr (.inl (next_of_fault hs h)),
        Parse.looksFirst_peekOperator? s.parser ch n h]
      exact .error _ hs
  | token first rest =>
      rw [bind_apply_ok (next_of_token hs h)]
      dsimp only
      by_cases hsingle : pairedSigns first = []
      · rw [if_pos (List.isEmpty_iff.mpr hsingle), pure_bind,
          Parse.peekOperator?_of_single (p := s.parser) h hsingle]
        exact findsOperator_single
      · rw [if_neg (mt List.isEmpty_iff.mp hsingle)]
        have hfirst : Scanner.Settled ⟨⟨rest, some first, false⟩, s.cursor, s.suffixes⟩ :=
          Lexer.settled_of_ahead _ _
        cases rest with
        | done n =>
            rw [bind_apply_ok (secondSign?_of_done first rfl),
              Parse.peekOperator?_of_peek (p := s.parser) h (Parse.peek_of_done rfl)]
            exact findsOperator_single
        | fault ch n =>
            rw [bind_eq_error.mpr (.inl (secondSign?_of_fault first hfirst rfl)),
              Parse.peekOperator?_of_brokenPair (p := s.parser) h hsingle]
            exact .error _ hfirst
        | token second rest =>
            have hsecond := secondSign?_of_token first hfirst rfl
            rw [Parse.peekOperator?_of_peek (p := s.parser) h (Parse.peek_of_token rfl),
              Parse.operatorOf, Option.bind_some]
            -- a second token that does not go with the first is given back before it counts alone
            cases hpaired : paired? first second with
            | some op =>
                rw [hpaired] at hsecond
                rw [bind_apply_ok hsecond]
                exact .some op (Lexer.settled_of_ahead rest (some second))
            | none =>
                rw [hpaired] at hsecond
                rw [bind_apply_ok hsecond]
                exact findsOperator_single

/-- An operator that was taken and one that was looked for. -/
theorem endsAs_operator_bind (hs : s.Settled) {f : Option (BinaryOp × Lexer) → Scan α}
    {g : Option (BinaryOp × TokenStream) → Parse α} (hnone : EndsAs (f none s) (g none s.parser))
    (hsome : ∀ op l, l.Settled → EndsAs (f (some (op, s.lexer)) ⟨l, s.cursor, s.suffixes⟩)
      (g (some (op, l.stream)) s.parser)) :
    EndsAs ((operator? >>= f) s) ((Parse.peekOperator? >>= g) s.parser) := by
  have hfinds := findsOperator hs
  generalize hop : operator? s = result at hfinds
  generalize hpeek : Parse.peekOperator? s.parser = result' at hfinds
  cases hfinds with
  | none =>
      rw [bind_apply_ok hop, bind_apply_ok hpeek]
      exact hnone
  | some op hl =>
      rw [bind_apply_ok hop, bind_apply_ok hpeek]
      exact hsome op _ hl
  | error e ht =>
      rw [bind_eq_error.mpr (.inl hop), bind_eq_error.mpr (.inl hpeek)]
      exact .error e ht rfl

theorem performs_leastInteger? (minus : Token) :
    Performs (leastInteger? minus) (Parse.leastInteger? minus) := by
  intro s hs
  rw [leastInteger?, bind_apply_ok (checkpoint_apply s)]
  refine endsAs_next_bind hs (fun t rest h => ?_) fun n h => .ok _ hs rfl
  dsimp only
  split
  · rw [bind_apply_ok (get_apply s.parser), bind_apply_ok (Parse.skip_of_token (p := s.parser) h)]
    let behind : Scanner := ⟨⟨rest, some t, false⟩, s.cursor, s.suffixes⟩
    have hbehind : behind.Settled := Lexer.settled_of_ahead rest (some t)
    exact endsAs_operator_bind hbehind (.ok _ hbehind rfl) fun op l hl => .ok _ hs rfl
  · exact .ok _ hs rfl

end

end Scan

end OnePassSql
