/-!
Doubles taken apart. A finite double is a whole number times a power of two; truncation and the
remainder of a division are computed on that form, exactly.
-/

namespace OnePassSql.Binary64

/-- The finite number `± significand * 2 ^ exponent`. -/
structure Parts where
  negative : Bool
  significand : Nat
  exponent : Int
deriving DecidableEq, Repr

/-- What the bits of a double stand for. -/
inductive Decoded where
  | nan
  | infinite (negative : Bool)
  | finite (parts : Parts)
deriving DecidableEq, Repr

/-- The bit in front of the fraction, which most doubles do not store. -/
def leadingBit : Nat := Nat.pow 2 52

/-- Splits the bits into sign, exponent and fraction. The exponent field `0` holds the numbers
without the implicit leading bit. -/
def decode (x : Float) : Decoded :=
  let bits : Nat := x.toBits.toNat
  let negative := decide (Nat.pow 2 63 ≤ bits)
  let field : Nat := bits / leadingBit % Nat.pow 2 11
  let fraction : Nat := bits % leadingBit
  if field = 2047 then
    if fraction = 0 then .infinite negative else .nan
  else if field = 0 then .finite ⟨negative, fraction, -1074⟩
  else .finite ⟨negative, leadingBit + fraction, Int.ofNat field - 1075⟩

/-- The magnitude without its fraction. -/
def Parts.wholeMagnitude (p : Parts) : Nat :=
  if 0 ≤ p.exponent then p.significand * Nat.pow 2 p.exponent.toNat
  else p.significand / Nat.pow 2 (-p.exponent).toNat

/-- The number without its fraction. -/
def Parts.whole (p : Parts) : Int :=
  if p.negative then -(p.wholeMagnitude : Int) else p.wholeMagnitude

/-- The number closest to `n` between `low` and `high`. -/
def clamp (low high n : Int) : Int :=
  if n < low then low else if high < n then high else n

/-- The whole number toward zero from `x`, kept between `low` and `high`; a NaN gives zero. -/
def toIntBetween (low high : Int) (x : Float) : Int :=
  match decode x with
  | .nan => 0
  | .infinite true => low
  | .infinite false => high
  | .finite p => clamp low high p.whole

/-- The double with magnitude `significand * 2 ^ exponent`. A negative power of two is the power
of ten with the same exponent times a power of five. -/
def ofMagnitude (significand : Nat) (exponent : Int) : Float :=
  if 0 ≤ exponent then Float.ofScientific (significand * Nat.pow 2 exponent.toNat) false 0
  else
    let places := (-exponent).toNat
    Float.ofScientific (significand * Nat.pow 5 places) true places

/-- The remainder of `a` divided by `b`, with the sign of `a`. Both are brought to the smaller of
the two exponents, so the remainder of whole numbers is the exact answer. -/
def Parts.remainder (a b : Parts) : Float :=
  let exponent := min a.exponent b.exponent
  let dividend := a.significand * Nat.pow 2 (a.exponent - exponent).toNat
  let divisor := b.significand * Nat.pow 2 (b.exponent - exponent).toNat
  let magnitude := ofMagnitude (dividend % divisor) exponent
  if a.negative then -magnitude else magnitude

/-- The remainder of a truncating division of doubles. -/
def remainder (x y : Float) : Float :=
  match decode x, decode y with
  | .finite a, .finite b => if b.significand = 0 then 0.0 / 0.0 else a.remainder b
  | .finite _, .infinite _ => x
  | _, _ => 0.0 / 0.0

end OnePassSql.Binary64
