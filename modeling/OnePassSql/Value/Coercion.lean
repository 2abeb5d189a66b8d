import OnePassSql.Fault
import OnePassSql.Text.Blank
import OnePassSql.Text.Utf8
import OnePassSql.Text.Word
import OnePassSql.Value.Written
import OnePassSql.Binary64.FromText

/-! Values read as another kind: coercion to a column's type, truth, and the scalar readers. -/

namespace OnePassSql

/-- The 64-bit integer equal to `n`, if there is one. -/
def narrow? (n : Int) : Option Int64 :=
  if Int64.minValue.toInt ≤ n ∧ n ≤ Int64.maxValue.toInt then some (Int64.ofInt n) else none

/-- The integer that a text spells: digits after an optional sign, nothing around them. -/
def integerOfText? (s : String) : Option Int64 :=
  let (negative, ds) := Binary64.splitSign s.toList
  if ds.isEmpty ∨ !ds.all Char.isDigit then none
  else
    let n := Binary64.digitsValue ds
    narrow? (if negative then -(n : Int) else n)

/-- The real that a text spells, blanks around it apart. -/
def realOfText? (s : String) : Option Float :=
  Binary64.read? (Text.trim s)

/-- The integer toward zero from `x`; out of range the nearest end, for a NaN zero. -/
def truncate (x : Float) : Int64 :=
  Int64.ofInt (Binary64.toIntBetween Int64.minValue.toInt Int64.maxValue.toInt x)

namespace Value

/-- Reads a text as an integer or faults for the type `target`. -/
def parseInteger (s : String) (target : ColumnType) : Except Fault Int64 :=
  match integerOfText? s with
  | some n => .ok n
  | none => .error (.coercion s target)

/-- Reads a text as a real or faults. -/
def parseReal (s : String) : Except Fault Float :=
  match realOfText? s with
  | some x => .ok x
  | none => .error (.coercion s .real)

/-- The value as a double, for arithmetic and mixed comparisons. Null and blobs count as zero; a
text must spell a number. -/
def toReal : Value → Except Fault Float
  | null | blob _ => .ok 0.0
  | integer n => .ok (Float.ofInt n.toInt)
  | real x => .ok x
  | text s => parseReal s

/-- Truth: only what equals one is true. A text is true if it reads `TRUE` or spells one. -/
def isTrue : Value → Bool
  | integer n => n == 1
  | real x => x == 1.0
  | text s =>
    if Text.sameWord s "TRUE" then true
    else if Text.sameWord s "FALSE" then false
    else match realOfText? s with
      | some x => x == 1.0
      | none => false
  | null | blob _ => false

/-- The value brought to a column's type, as on every write. Null stays null.

Integers are kept or truncated from reals, reals are widened from integers, and for both a text must
spell one; a blob counts as zero there. The other types turn numbers into text, and all of them but
NONE decode a blob. -/
def coerce (v : Value) (target : ColumnType) : Except Fault Value :=
  match v, target with
  | null, _ => .ok null
  | integer n, .integer => .ok (integer n)
  | real x, .integer => .ok (integer (truncate x))
  | text s, .integer => integer <$> parseInteger s .integer
  | blob _, .integer => .ok (integer 0)
  | integer n, .real => .ok (real (Float.ofInt n.toInt))
  | real x, .real => .ok (real x)
  | text s, .real => real <$> parseReal s
  | blob _, .real => .ok (real 0.0)
  | blob bytes, .text => .ok (text (String.ofList (Text.decodeUtf8 bytes)))
  | blob bytes, .numeric => .ok (text (String.ofList (Text.decodeUtf8 bytes)))
  | blob bytes, .none => .ok (blob bytes)
  | v, .text => .ok (text v.written)
  | v, .numeric => .ok (text v.written)
  | v, .none => .ok (text v.written)

/-- The value read as a 32-bit integer. Integers keep their low 32 bits. -/
def asInt32 : Value → Except Fault Int32
  | null => .ok 0
  | integer n => .ok n.toInt32
  | real x =>
    .ok (Int32.ofInt (Binary64.toIntBetween Int32.minValue.toInt Int32.maxValue.toInt x))
  | v => Int64.toInt32 <$> parseInteger v.written .integer

/-- The value read as a 64-bit integer. -/
def asInt64 : Value → Except Fault Int64
  | null => .ok 0
  | integer n => .ok n
  | real x => .ok (truncate x)
  | v => parseInteger v.written .integer

/-- The value read as a real. -/
def asReal : Value → Except Fault Float
  | null => .ok 0.0
  | integer n => .ok (Float.ofInt n.toInt)
  | real x => .ok x
  | v => parseReal v.written

/-- The value read as text. Null is the empty text. -/
def asText : Value → String
  | null => ""
  | v => v.written

/-- The value read as a truth value through its 32-bit integer. -/
def asBool (v : Value) : Except Fault Bool :=
  (· == 1) <$> v.asInt32

end Value

end OnePassSql
