import OnePassSql.Text.Printable

/-! Texts between double quotes, with escapes for what cannot be shown. -/

namespace OnePassSql.Text

/-- The written form of one character inside double quotes. -/
def escape (c : Char) : List Char :=
  if c = '\x00' then ['\\', '0']
  else if c = '\t' then ['\\', 't']
  else if c = '\r' then ['\\', 'r']
  else if c = '\n' then ['\\', 'n']
  else if c = '"' then ['\\', '"']
  else if c = '\\' then ['\\', '\\']
  else if isPrintable c then [c]
  else ['\\', 'u', '\x7b'] ++ Nat.toDigits 16 c.toNat ++ ['\x7d']

/-- The text between double quotes, every character escaped that cannot stand for itself. -/
def quoted (s : String) : String :=
  String.ofList ('"' :: (s.toList.flatMap escape ++ ['"']))

end OnePassSql.Text
