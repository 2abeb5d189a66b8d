import OnePassSql.Text.Blank
import OnePassSql.Text.Letter
import OnePassSql.Text.Numeral
import OnePassSql.Token.Basic

/-!
SQL text cut into tokens. Blanks separate tokens and belong to none; every token is as long as its
class allows. `scan?_append` says that a scanned token and the text after it are the text scanned.
-/

namespace OnePassSql

/-- Signs that are tokens of their own. -/
def isPunctuation (c : Char) : Bool :=
  [',', ';', '(', ')', '?', ':', '@', '$', '|', '&', '*', '%', '+', '-'].contains c

/-- Signs of comparison; an equals sign directly behind one belongs to it. -/
def isComparison (c : Char) : Bool :=
  ['!', '=', '>', '<'].contains c

/-- A character that a word can start with. -/
def startsWord (c : Char) : Bool :=
  Text.isLetter c || c == '_'

/-- A character that a word can go on with. -/
def continuesWord (c : Char) : Bool :=
  Text.isLetter c || Text.isNumeral c || c == '_' || c == '.'

/-- Splits a text behind the first quote, or at its end if there is none. -/
def spanQuoted (quote : Char) : List Char → List Char × List Char
  | [] => ([], [])
  | c :: rest =>
    if c = quote then ([c], rest)
    else
      let (body, tail) := spanQuoted quote rest
      (c :: body, tail)

theorem spanQuoted_append (quote : Char) (cs : List Char) :
    (spanQuoted quote cs).1 ++ (spanQuoted quote cs).2 = cs := by
  induction cs with
  | nil => rfl
  | cons c rest ih =>
      unfold spanQuoted
      split
      · rfl
      · simpa using ih

/-- The token that starts with `first`: its class, its other characters, and the text behind it. -/
def scan? (first : Char) (rest : List Char) : Option (TokenKind × List Char × List Char) :=
  if isPunctuation first then some (.symbol, [], rest)
  else if isComparison first then
    match rest with
    | '=' :: tail => some (.symbol, ['='], tail)
    | _ => some (.symbol, [], rest)
  else if first = '\'' then some (.string, spanQuoted first rest)
  else if first = '"' then some (.quotedName, spanQuoted first rest)
  else if startsWord first then
    some (.word, rest.takeWhile continuesWord, rest.dropWhile continuesWord)
  else if first.isDigit then
    some (.number, rest.takeWhile Char.isDigit, rest.dropWhile Char.isDigit)
  else none

theorem scan?_append {first : Char} {rest more tail : List Char} {kind : TokenKind}
    (h : scan? first rest = some (kind, more, tail)) : more ++ tail = rest := by
  unfold scan? at h
  repeat' split at h
  all_goals first
    | contradiction
    | (simp only [Option.some.injEq, Prod.mk.injEq] at h
       obtain ⟨-, rfl, rfl⟩ := h
       simp)
    | (simp only [Option.some.injEq, Prod.mk.injEq] at h
       obtain ⟨-, h⟩ := h
       simpa [h] using spanQuoted_append first rest)

/-- The tokens of a text, and how it ends: all of it was read, or a character starts no token. -/
inductive TokenStream where
  | token (first : Token) (rest : TokenStream)
  | done (position : Nat)
  | fault (ch : Char) (position : Nat)
deriving DecidableEq, Repr

namespace TokenStream

/-- Cuts the text that starts at `position`. -/
def cut (position : Nat) (cs : List Char) : TokenStream :=
  match _hc : cs.dropWhile Text.isBlank with
  | [] => .done (position + cs.length)
  | first :: rest =>
    let start := position + (cs.takeWhile Text.isBlank).length
    match hs : scan? first rest with
    | none => .fault first start
    | some (kind, more, tail) =>
      .token ⟨kind, String.ofList (first :: more), start⟩ (cut (start + 1 + more.length) tail)
termination_by cs.length
decreasing_by
  have hl := congrArg List.length (scan?_append hs)
  have hb := (List.dropWhile_suffix Text.isBlank (l := cs)).length_le
  simp only [List.length_append] at hl
  rw [_hc, List.length_cons] at hb
  omega

/-- The tokens of a whole text. -/
def ofText (sql : String) : TokenStream := cut 0 sql.toList

/-- The position of the next token, of the character that starts none, or of the end. -/
def position : TokenStream → Nat
  | token first _ => first.position
  | done position => position
  | fault _ position => position

/-- The tokens up to the end or the fault. -/
def toList : TokenStream → List Token
  | token first rest => first :: rest.toList
  | _ => []

/-- How many tokens there are. -/
def length : TokenStream → Nat
  | token _ rest => rest.length + 1
  | _ => 0

/-- The stream without its first token. -/
def tail : TokenStream → TokenStream
  | token _ rest => rest
  | s => s

/-- What is left when all tokens have been taken. -/
def ending : TokenStream → TokenStream
  | token _ rest => rest.ending
  | s => s

/-- The tokens before the parenthesis that closes the `depth`-th one open, and what follows it. -/
def enclosed? (depth : Nat) : TokenStream → Option (List Token × TokenStream)
  | token first rest =>
    if first.is ")" then
      if depth = 1 then some ([], rest)
      else (rest.enclosed? (depth - 1)).map fun r => (first :: r.1, r.2)
    else
      (rest.enclosed? (if first.is "(" then depth + 1 else depth)).map fun r => (first :: r.1, r.2)
  | _ => none

end TokenStream

end OnePassSql
