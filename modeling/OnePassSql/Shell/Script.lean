import OnePassSql.Text.Blank

/-! Scripts cut into statements at the semicolons that stand outside of quotes. -/

namespace OnePassSql.Shell

/-- Signs that open a quoted run, which the same sign closes. -/
def isQuote (c : Char) : Bool := ['\'', '"', '\x60'].contains c

/-- The quote that is open behind a character. -/
def quoteAfter (quote : Option Char) (c : Char) : Option Char :=
  match quote with
  | none => if isQuote c then some c else none
  | some q => if q = c then none else some q

/-- The runs between the semicolons outside of quotes, the last one included. -/
def pieces (quote : Option Char) (current : List Char) : List Char → List (List Char)
  | [] => [current.reverse]
  | c :: rest =>
    if quote.isNone ∧ c = ';' then current.reverse :: pieces none [] rest
    else pieces (quoteAfter quote c) (c :: current) rest

/-- The statements of a script, without the blanks around them. What is blank is none. -/
def splitStatements (script : String) : List String :=
  ((pieces none [] script.toList).map Text.trimChars).filterMap fun cs =>
    if cs.isEmpty then none else some (String.ofList cs)

/-- The lines of a text. A line break at the end starts no line. -/
def lines (current : List Char) : List Char → List String
  | [] => if current.isEmpty then [] else [String.ofList current.reverse]
  | c :: rest =>
    if c = '\n' then String.ofList current.reverse :: lines [] rest else lines (c :: current) rest

/-- The lines of a text. -/
def linesOf (text : String) : List String := lines [] text.toList

end OnePassSql.Shell
