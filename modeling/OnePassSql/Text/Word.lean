/-! Words compared without regard to the case of ASCII letters. -/

namespace OnePassSql.Text

/-- The text with its ASCII letters in lower case. -/
def lower (s : String) : String :=
  String.ofList (s.toList.map Char.toLower)

/-- The same word, but for the case of ASCII letters. -/
def sameWord (s t : String) : Bool :=
  s.toList.map Char.toUpper == t.toList.map Char.toUpper

/-- Whether `part` occurs in `whole` as a run of consecutive elements. -/
def occursIn (part : List Char) : List Char → Bool
  | [] => part.isEmpty
  | c :: rest => part.isPrefixOf (c :: rest) || occursIn part rest

/-- Whether `s` holds `part`, but for the case of ASCII letters. -/
def holdsWord (s part : String) : Bool :=
  occursIn (part.toList.map Char.toUpper) (s.toList.map Char.toUpper)

end OnePassSql.Text
