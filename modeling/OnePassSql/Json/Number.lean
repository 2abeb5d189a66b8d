import OnePassSql.Binary64.FromText

/-!
Numbers in JSON text. A real is computed from the digits that fit a 64-bit word, in doubles: the
word times, or divided by, a power of ten.
-/

namespace OnePassSql.Json

/-- A number as written. Without a fraction `fraction` is empty; the exponent has its own sign. -/
structure Number where
  negative : Bool
  whole : List Char
  fraction : List Char
  exponent : Option (Bool × List Char)

namespace Number

/-- The digits taken into a word and the power of ten that it still lacks. -/
structure Scaled where
  word : Nat
  power : Int
  full : Bool

/-- Takes a digit before the point. Once a digit does not fit, each one only adds a place. -/
def Scaled.addWhole (s : Scaled) (c : Char) : Scaled :=
  let word := s.word * 10 + (c.toNat - '0'.toNat)
  if s.full ∨ UInt64.size ≤ word then { s with power := s.power + 1, full := true }
  else { s with word := word }

/-- Takes a digit behind the point. Once a digit does not fit, the rest is left out. -/
def Scaled.addFraction (s : Scaled) (c : Char) : Scaled :=
  let word := s.word * 10 + (c.toNat - '0'.toNat)
  if s.full ∨ UInt64.size ≤ word then { s with full := true }
  else { s with word := word, power := s.power - 1 }

/-- All digits of a number. -/
def scaled (n : Number) : Scaled :=
  let before := n.whole.foldl Scaled.addWhole ⟨0, 0, false⟩
  n.fraction.foldl Scaled.addFraction { before with full := false }

/-- A power of ten as a double. -/
def tenTo (power : Nat) : Float := Float.ofScientific 1 false power

/-- Multiplies a double by a power of ten. Too large a product is no number; a power below
`10 ^ -308` is applied in portions until nothing is left. -/
def rescale (x : Float) (power : Int) : Nat → Option Float
  | 0 => some x
  | rounds + 1 =>
    if power.natAbs ≤ 308 then
      if 0 ≤ power then
        let y := x * tenTo power.toNat
        if y.isInf then none else some y
      else some (x / tenTo power.natAbs)
    else if x == 0.0 then some x
    else if 0 ≤ power then none
    else rescale (x / tenTo 308) (power + 308) rounds

/-- The largest number that an exponent counts up to. -/
def exponentLimit : Nat := Nat.pow 2 31 - 1

/-- The magnitude as a double, if doubles reach that far. -/
def magnitude? (n : Number) : Option Float :=
  let s := n.scaled
  let start := Float.ofNat s.word
  match n.exponent with
  | none => rescale start s.power (s.power.natAbs / 308 + 2)
  | some (below, ds) =>
    let e := Binary64.digitsValue ds
    if exponentLimit < e then
      if s.word ≠ 0 ∧ !below then none else some 0.0
    else
      let power := if below then s.power - e else s.power + e
      rescale start power (power.natAbs / 308 + 2)

/-- The number as a double. Zero keeps its sign. -/
def toReal? (n : Number) : Option Float :=
  n.magnitude?.map fun x => if n.negative then -x else x

/-- The number as an integer, if it is written without fraction and exponent. It fits a 64-bit
word, unsigned if positive and signed if negative; a negative zero is no integer. -/
def toInt? (n : Number) : Option Int :=
  if n.fraction.isEmpty ∧ n.exponent.isNone then
    let magnitude := Binary64.digitsValue n.whole
    if n.negative then
      if 0 < magnitude ∧ magnitude ≤ Nat.pow 2 63 then some (-magnitude) else none
    else if magnitude < UInt64.size then some magnitude
    else none
  else none

end Number

end OnePassSql.Json
