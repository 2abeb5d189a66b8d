import OnePassSql.Text.Ranges

/-! Blank characters (the Unicode property White_Space) and trimming. -/

namespace OnePassSql.Text

/-- Code points with the property White_Space. -/
def blankRanges : List (Nat × Nat) :=
  [(0x9, 0xD), (0x20, 0x20), (0x85, 0x85), (0xA0, 0xA0), (0x1680, 0x1680), (0x2000, 0x200A),
   (0x2028, 0x2029), (0x202F, 0x202F), (0x205F, 0x205F), (0x3000, 0x3000)]

/-- White space, in ASCII and beyond. -/
def isBlank (c : Char) : Bool :=
  within blankRanges c

/-- Drops the blanks at both ends. -/
def trimChars (cs : List Char) : List Char :=
  ((cs.dropWhile isBlank).reverse.dropWhile isBlank).reverse

/-- The text without the blanks at its two ends. -/
def trim (s : String) : String :=
  String.ofList (trimChars s.toList)

end OnePassSql.Text
