import OnePassSql.Binary64.Shortest

/-! Written forms of doubles: which powers of ten are written out and how an exponent looks. -/

namespace OnePassSql.Binary64

/-- A written form. Numbers whose first digit has a power of ten from `smallest` to below
`largest` are written out; the others get an exponent. A missing bound writes out all of them. -/
structure Layout where
  smallest : Option Int
  largest : Option Int
  plusSign : Bool
  tie : Tie

/-- The decimal digits of a number. -/
def digitsOf (n : Nat) : List Char := Nat.toDigits 10 n

/-- A run of zeros. -/
def zeros (n : Nat) : List Char := List.replicate n '0'

/-- The number written out. Whole numbers below `10 ^ 16` show a decimal point. -/
def Decimal.positional (d : Decimal) : List Char :=
  let ds := digitsOf d.digits
  let leading := d.exponent + ds.length - 1
  if 0 ≤ d.exponent then
    ds ++ zeros d.exponent.toNat ++ (if leading < 16 then ['.', '0'] else [])
  else if 0 ≤ leading then
    ds.take (leading.toNat + 1) ++ '.' :: ds.drop (leading.toNat + 1)
  else
    '0' :: '.' :: (zeros (-leading - 1).toNat ++ ds)

/-- The number with its first digit before the point and a power of ten. -/
def Decimal.scientific (d : Decimal) (plusSign : Bool) : List Char :=
  let ds := digitsOf d.digits
  let leading := d.exponent + ds.length - 1
  let fraction := if ds.length ≤ 1 then [] else '.' :: ds.drop 1
  let sign := if leading < 0 then ['-'] else if plusSign then ['+'] else []
  ds.take 1 ++ fraction ++ 'e' :: (sign ++ digitsOf leading.natAbs)

/-- The magnitude in the chosen form. -/
def Layout.magnitude (l : Layout) (p : Parts) : List Char :=
  let d := p.shortest l.tie
  let leading := d.exponent + (digitsOf d.digits).length - 1
  if d.digits = 0 ∨ (l.smallest.all (· ≤ leading) ∧ l.largest.all (leading < ·)) then d.positional
  else d.scientific l.plusSign

/-- The text of a double. Zero keeps its sign. -/
def Layout.write (l : Layout) (x : Float) : String :=
  match decode x with
  | .nan => "NaN"
  | .infinite negative => if negative then "-inf" else "inf"
  | .finite p => String.ofList ((if p.negative then ['-'] else []) ++ l.magnitude p)

end OnePassSql.Binary64
