import OnePassSql.Text.Word

/-! Tokens of SQL text. -/

namespace OnePassSql

/-- The lexical classes. -/
inductive TokenKind where
  /-- Punctuation and comparison signs. -/
  | symbol
  /-- A text between single quotes, quotes included. -/
  | string
  /-- A name between double quotes, quotes included. -/
  | quotedName
  /-- A run of decimal digits. -/
  | number
  /-- Letters, numerals, `_` and `.`, starting with a letter or `_`. -/
  | word
deriving DecidableEq, Repr

/-- A token with its text, verbatim, and the position of its first character. -/
structure Token where
  kind : TokenKind
  text : String
  position : Nat
deriving DecidableEq, Repr

namespace Token

/-- The token reads as the given word or sign, in any case. -/
def is (t : Token) (word : String) : Bool :=
  Text.sameWord t.text word

/-- The position after the token's last character. -/
def stop (t : Token) : Nat := t.position + t.text.length

/-- Takes a quote away at the start and one at the end, where they stand. -/
def dropQuotes (quote : Char) (cs : List Char) : List Char :=
  let inner := if cs.head? = some quote then cs.tail else cs
  if inner.getLast? = some quote then inner.dropLast else inner

/-- The text without the quotes around it. A missing closing quote is not missed. -/
def unquoted (t : Token) : String :=
  match t.kind with
  | .string => String.ofList (dropQuotes '\'' t.text.toList)
  | .quotedName => String.ofList (dropQuotes '"' t.text.toList)
  | _ => t.text

/-- The name that the token gives to an object. Quotes only serve to dodge keywords. -/
def name (t : Token) : String := t.unquoted

end Token

end OnePassSql
