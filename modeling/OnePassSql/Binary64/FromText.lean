/-! Doubles read from text: an optional sign, then a decimal, `inf`, `infinity` or `nan`. -/

namespace OnePassSql.Binary64

/-- The number that decimal digits spell. -/
def digitsValue (ds : List Char) : Nat :=
  ds.foldl (fun n c => n * 10 + (c.toNat - '0'.toNat)) 0

/-- Splits a text after its leading digits. -/
def spanDigits (cs : List Char) : List Char × List Char :=
  (cs.takeWhile Char.isDigit, cs.dropWhile Char.isDigit)

/-- A sign and the rest of the text; a missing sign is a plus. -/
def splitSign : List Char → Bool × List Char
  | '-' :: rest => (true, rest)
  | '+' :: rest => (false, rest)
  | rest => (false, rest)

/-- The exponent part: nothing, or `e` with a whole number. -/
def readExponent? : List Char → Option Int
  | [] => some 0
  | c :: rest =>
    if c = 'e' ∨ c = 'E' then
      let (negative, ds) := splitSign rest
      if ds.isEmpty ∨ !ds.all Char.isDigit then none
      else some (if negative then -(digitsValue ds : Int) else digitsValue ds)
    else none

/-- The double nearest to `digits * 10 ^ exponent`. Magnitudes far outside the range of doubles
are settled by the count of their digits. -/
def nearest (digits : Nat) (exponent : Int) : Float :=
  let size := (Nat.toDigits 10 digits).length
  if digits = 0 then 0.0
  else if 400 < exponent + size then 1.0 / 0.0
  else if exponent + size < -400 then 0.0
  else if 0 ≤ exponent then Float.ofScientific digits false exponent.toNat
  else Float.ofScientific digits true (-exponent).toNat

/-- An unsigned decimal. There is a digit before or after the point. -/
def readDecimal? (cs : List Char) : Option Float :=
  let (whole, rest) := spanDigits cs
  let (fraction, rest) :=
    match rest with
    | '.' :: tail => spanDigits tail
    | _ => ([], rest)
  if whole.isEmpty ∧ fraction.isEmpty then none
  else (readExponent? rest).map fun e =>
    nearest (digitsValue (whole ++ fraction)) (e - fraction.length)

/-- An unsigned double; the words are read in any case. -/
def readMagnitude? (cs : List Char) : Option Float :=
  let word := cs.map Char.toLower
  if word = "inf".toList ∨ word = "infinity".toList then some (1.0 / 0.0)
  else if word = "nan".toList then some (0.0 / 0.0)
  else readDecimal? cs

/-- The double that a text spells. Nothing may stand around it. -/
def read? (s : String) : Option Float :=
  let (negative, rest) := splitSign s.toList
  (readMagnitude? rest).map fun x => if negative then -x else x

end OnePassSql.Binary64
