import OnePassSql.Token.Stream
import OnePassSql.Value.Coercion

/-!
The parser's state and its steps on tokens. A step that matches takes exactly one token; a step
that may fail to match looks first and takes nothing then. A fault leaves the state where it arose,
so a parser can be used on after one.
-/

namespace OnePassSql

/-- The tokens ahead, the parameter that the next unnumbered `?` reads, and whether the forms that
stand behind an operand are read. They are not in a column default, where a trailing `NOT NULL`
belongs to the column. -/
structure Parser where
  ahead : TokenStream
  cursor : Nat
  suffixes : Bool
deriving DecidableEq, Repr

/-- A step of a parser. -/
abbrev Parse := EStateM Fault Parser

namespace Parser

/-- The parser before the first token of a text. -/
def ofText (sql : String) : Parser := ⟨.ofText sql, 0, true⟩

/-- The position of the next token. -/
def position (p : Parser) : Nat := p.ahead.position

end Parser

namespace Parse

/-- The position of the next token. -/
def position : Parse Nat := return (← get).position

/-- The next token, none at the end. Takes nothing. -/
def peek : Parse (Option Token) := do
  match (← get).ahead with
  | .token first _ => return some first
  | .done _ => return none
  | .fault ch position => throw (.lexical ch position)

/-- Goes on with the given tokens. -/
def resume (ahead : TokenStream) : Parse Unit :=
  modify fun p => { p with ahead := ahead }

/-- Takes the next token. -/
def skip : Parse Unit :=
  modify fun p => { p with ahead := p.ahead.tail }

/-- Takes the next token and gives it, none at the end. -/
def next : Parse (Option Token) := do
  let t ← peek
  skip
  return t

/-- Refuses what stands at `position`. -/
def refuse {α : Type} (words : List String) (position : Nat) : Parse α :=
  throw (.parse (.expected words) position)

/-- The meaning of the first of the words that the token reads as. -/
def meaning? {α : Type} (options : List (String × α)) (t : Token) : Option α :=
  options.findSome? fun o => if t.is o.1 then some o.2 else none

/-- Takes one of the words if it is next, and gives its meaning. -/
def acceptOne? {α : Type} (options : List (String × α)) : Parse (Option α) := do
  match (← peek).bind (meaning? options) with
  | some a => skip; return some a
  | none => return none

/-- Takes one of the words and gives its meaning. Another token is taken and refused. -/
def expectOne {α : Type} (options : List (String × α)) : Parse α := do
  let start ← position
  match (← next).bind (meaning? options) with
  | some a => return a
  | none => refuse (options.map Prod.fst) start

/-- Takes the word if it is next. -/
def accept (word : String) : Parse Bool :=
  return (← acceptOne? [(word, ())]).isSome

/-- Takes the word, or refuses what stands there. -/
def expect (word : String) : Parse Unit :=
  expectOne [(word, ())]

/-- Takes the next token if it holds one of the fragments, and gives the meaning of the first that
it holds. -/
def acceptHolding? {α : Type} (fragments : List (String × α)) : Parse (Option α) := do
  let found := (← peek).bind fun t =>
    fragments.findSome? fun f => if Text.holdsWord t.text f.1 then some f.2 else none
  match found with
  | some a => skip; return some a
  | none => return none

/-- The next token is one of the words. Takes nothing. -/
def isNext (words : List String) : Parse Bool :=
  return (← peek).any fun t => words.any t.is

/-- No token is left. -/
def atEnd : Parse Bool :=
  return (← peek).isNone

/-- Takes any token. -/
def expectToken : Parse Token := do
  let start ← position
  match ← next with
  | some t => return t
  | none => refuse ["Identifier"] start

/-- Takes any token as the name of an object. -/
def expectName : Parse String := do
  let t ← expectToken
  return t.name

/-- Takes a number token that fits 64 bits. -/
def expectNumber : Parse Int64 := do
  let start ← position
  match ← next with
  | some t =>
    if t.kind = .number then
      match integerOfText? t.text with
      | some n => return n
      | none => throw (.parse .numberOutOfRange start)
    else refuse ["Number"] start
  | none => refuse ["Number"] start

/-- Takes a text token and gives the text without its quotes. -/
def expectString : Parse String := do
  let start ← position
  match ← next with
  | some t => if t.kind = .string then return t.unquoted else refuse ["String"] start
  | none => refuse ["String"] start

/-- Takes the end of a statement: a semicolon, or nothing at the end of the text. -/
def expectEnd : Parse Unit := do
  let start ← position
  match ← next with
  | some t => if t.is ";" then return else refuse [";", "end of statement"] start
  | none => return

/-- Reads forms with commas between them, at most `budget` of them. -/
def separated {α : Type} (form : Parse α) : Nat → Parse (List α)
  | 0 => throw .exhausted
  | budget + 1 => do
    let a ← form
    if ← accept "," then
      let rest ← separated form budget
      return a :: rest
    else return [a]

/-- Reads one or more forms with commas between them. Every comma takes a token. -/
def commaSeparated {α : Type} (form : Parse α) : Parse (List α) := do
  separated form ((← get).ahead.length + 1)

/-- Takes tokens as long as they are among the words. -/
def skipWords (words : List String) : Parse Unit :=
  modify fun p => { p with ahead := go p.ahead }
where
  /-- The tokens from the first that is none of the words. -/
  go : TokenStream → TokenStream
    | .token first rest => if words.any first.is then go rest else .token first rest
    | s => s

/-- Reads a form with the suffix forms on or off, and sets them back as they were, also after a
fault. -/
def withSuffixes {α : Type} (on : Bool) (form : Parse α) : Parse α := fun p =>
  match form { p with suffixes := on } with
  | .ok a q => .ok a { q with suffixes := p.suffixes }
  | .error e q => .error e { q with suffixes := p.suffixes }

end Parse

end OnePassSql
