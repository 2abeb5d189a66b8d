import OnePassSql.Binary64.Layout
import OnePassSql.NameMap

/-! JSON values and their two written forms: on one line, and indented. -/

namespace OnePassSql

/-- A JSON value. The members of an object stand in the order of their keys. -/
inductive Json where
  | null
  | bool (b : Bool)
  | integer (n : Int)
  | real (x : Float)
  | text (s : String)
  | array (items : List Json)
  | object (members : List (String × Json))

namespace Json

/-- The object of a list of members; of members with one key the last counts. -/
def ofMembers (members : List (String × Json)) : Json :=
  object (NameMap.ofList members).entries

/-- Reals show an exponent, with its sign, below `10 ^ -5` and from `10 ^ 16` on. -/
def realLayout : Binary64.Layout := ⟨some (-5), some 16, true, .toEven⟩

/-- The text of a real. JSON has no word for a NaN or an infinity; they become null. -/
def realText (x : Float) : String :=
  match Binary64.decode x with
  | .finite _ => realLayout.write x
  | _ => "null"

/-- A hexadecimal digit in lower case. -/
def lowerHexDigit (n : Nat) : Char :=
  if n < 10 then Char.ofNat ('0'.toNat + n) else Char.ofNat ('a'.toNat + (n - 10))

/-- The written form of one character of a text. -/
def escape (c : Char) : List Char :=
  if c = '"' then ['\\', '"']
  else if c = '\\' then ['\\', '\\']
  else if c.toNat = 8 then ['\\', 'b']
  else if c.toNat = 12 then ['\\', 'f']
  else if c = '\n' then ['\\', 'n']
  else if c = '\r' then ['\\', 'r']
  else if c = '\t' then ['\\', 't']
  else if c.toNat < 32 then
    ['\\', 'u', '0', '0', lowerHexDigit (c.toNat / 16), lowerHexDigit (c.toNat % 16)]
  else [c]

/-- A text between quotes. -/
def quoted (s : String) : String :=
  String.ofList ('"' :: (s.toList.flatMap escape ++ ['"']))

/-- What an opening bracket is, by its closing one. -/
def braces : String × String := ("\x7b", "\x7d")

mutual

/-- The value on one line, without blanks. -/
def compact : Json → String
  | null => "null"
  | bool b => if b then "true" else "false"
  | integer n => toString n
  | real x => realText x
  | text s => quoted s
  | array items => "[" ++ ",".intercalate (compactItems items) ++ "]"
  | object members => braces.1 ++ ",".intercalate (compactMembers members) ++ braces.2

/-- The items of an array, each on its own. -/
def compactItems : List Json → List String
  | [] => []
  | item :: rest => compact item :: compactItems rest

/-- The members of an object, each on its own. -/
def compactMembers : List (String × Json) → List String
  | [] => []
  | (key, value) :: rest => (quoted key ++ ":" ++ compact value) :: compactMembers rest

end

/-- A line break and the blanks that a line at this depth starts with. -/
def lineBreak (depth : Nat) : String :=
  String.ofList ('\n' :: List.replicate (2 * depth) ' ')

/-- Entries between brackets, one on each line; nothing between them if there are none. -/
def block (brackets : String × String) (depth : Nat) (entries : List String) : String :=
  if entries.isEmpty then brackets.1 ++ brackets.2
  else
    brackets.1 ++ lineBreak (depth + 1) ++ ("," ++ lineBreak (depth + 1)).intercalate entries
      ++ lineBreak depth ++ brackets.2

mutual

/-- The value with one item or member on a line, indented by two blanks for each level. -/
def pretty (depth : Nat) : Json → String
  | array items => block ("[", "]") depth (prettyItems (depth + 1) items)
  | object members => block braces depth (prettyMembers (depth + 1) members)
  | scalar => compact scalar

/-- The items of an array. -/
def prettyItems (depth : Nat) : List Json → List String
  | [] => []
  | item :: rest => pretty depth item :: prettyItems depth rest

/-- The members of an object. -/
def prettyMembers (depth : Nat) : List (String × Json) → List String
  | [] => []
  | (key, value) :: rest =>
    (quoted key ++ ": " ++ pretty depth value) :: prettyMembers depth rest

end

end Json

end OnePassSql
