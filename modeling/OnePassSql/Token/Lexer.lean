import OnePassSql.Fault
import OnePassSql.Token.Stream

/-!
A lexer hands out the tokens of a text one by one. The token last handed out can be pushed back
once; a lexer value saved earlier is a checkpoint to go back to.
-/

namespace OnePassSql

/-- The tokens not yet handed out, the token last handed out, and whether it comes again. -/
structure Lexer where
  ahead : TokenStream
  current : Option Token
  pushedBack : Bool
deriving DecidableEq, Repr

namespace Lexer

/-- The lexer before the first token of a text. -/
def ofText (sql : String) : Lexer := ⟨.ofText sql, none, false⟩

/-- Hands out the next token, none at the end. A fault leaves the lexer as it was. -/
def advance (l : Lexer) : Except Fault (Option Token) × Lexer :=
  if l.pushedBack then (.ok l.current, { l with pushedBack := false })
  else match l.ahead with
    | .token first rest => (.ok (some first), ⟨rest, some first, false⟩)
    | .done _ => (.ok none, { l with current := none })
    | .fault ch position => (.error (.lexical ch position), l)

/-- Lets the current token come again. Only one token deep. -/
def pushBack (l : Lexer) : Lexer := { l with pushedBack := true }

/-- The position of what the next advance is about. -/
def position (l : Lexer) : Nat :=
  match l.current, l.pushedBack with
  | some t, true => t.position
  | _, _ => l.ahead.position

end Lexer

end OnePassSql
