import OnePassSql.Value.Basic
import OnePassSql.Binary64.Layout

/-! The written form of values: what a listing shows and what storing as text keeps. -/

namespace OnePassSql.Value

/-- Reals are written out whatever their size. -/
def realLayout : Binary64.Layout := ⟨none, none, false, .up⟩

/-- A digit of a byte written in hexadecimal. -/
def hexDigit (n : Nat) : Char :=
  if n < 10 then Char.ofNat ('0'.toNat + n) else Char.ofNat ('A'.toNat + (n - 10))

/-- A byte as two hexadecimal digits. -/
def hexByte (b : UInt8) : List Char :=
  [hexDigit (b.toNat / 16), hexDigit (b.toNat % 16)]

/-- The value's text. Blobs are written as hexadecimal literals. -/
def written : Value → String
  | null => "NULL"
  | integer n => toString n.toInt
  | real x => realLayout.write x
  | text s => s
  | blob bytes => String.ofList ("X'".toList ++ bytes.flatMap hexByte ++ ['\''])

end OnePassSql.Value
