import OnePassSql.Binary64.Parts

/-!
The shortest decimal that reads back as a given double.

The reals that round to a double form an interval. On the grid of decimals with one significant
digit, then two, and so on, the two neighbours of the double are tested; the first grid on which
one of them lies in the interval gives the answer.
-/

namespace OnePassSql.Binary64

/-- The number `digits * 10 ^ exponent`. -/
structure Decimal where
  digits : Nat
  exponent : Int
deriving DecidableEq, Repr

/-- Which of two neighbours is taken when both are equally near. -/
inductive Tie where
  | toEven
  | up
deriving DecidableEq, Repr

/-- The interval of reals that round to a double, all numbers over one denominator. -/
structure Interval where
  low : Nat
  value : Nat
  high : Nat
  denominator : Nat
  closed : Bool

/-- A neighbour `n / 1` of the value, on the grid that the denominator fits, lies inside. -/
def Interval.holds (i : Interval) (n : Nat) : Bool :=
  if i.closed then decide (i.low ≤ n * i.denominator) && decide (n * i.denominator ≤ i.high)
  else decide (i.low < n * i.denominator) && decide (n * i.denominator < i.high)

/-- The interval of `significand * 2 ^ exponent`, measured in units of `10 ^ grid`. Half a step
lies on either side, and a quarter below a power of two, where the doubles are denser. An even
significand owns the ends. -/
def Parts.interval (p : Parts) (grid : Int) : Interval :=
  let quarter := p.exponent - 2
  let numerator := Nat.pow 2 quarter.toNat * Nat.pow 10 (-grid).toNat
  let below := if p.significand = leadingBit ∧ -1074 < p.exponent then 1 else 2
  { low := (4 * p.significand - below) * numerator
    value := 4 * p.significand * numerator
    high := (4 * p.significand + 2) * numerator
    denominator := Nat.pow 2 (-quarter).toNat * Nat.pow 10 grid.toNat
    closed := p.significand % 2 == 0 }

/-- The nearer of the value's two neighbours if both lie inside, else the one that does. -/
def Interval.nearest? (i : Interval) (tie : Tie) : Option Nat :=
  let below := i.value / i.denominator
  let twiceRest := 2 * (i.value % i.denominator)
  match i.holds below, i.holds (below + 1) with
  | true, true =>
    if twiceRest < i.denominator then some below
    else if i.denominator < twiceRest then some (below + 1)
    else match tie with
      | .up => some (below + 1)
      | .toEven => some (if below % 2 = 0 then below else below + 1)
  | true, false => some below
  | false, true => some (below + 1)
  | false, false => none

/-- The magnitude is at least `10 ^ power`. -/
def Parts.reaches (p : Parts) (power : Int) : Bool :=
  decide (Nat.pow 2 (-p.exponent).toNat * Nat.pow 10 power.toNat
    ≤ p.significand * Nat.pow 2 p.exponent.toNat * Nat.pow 10 (-power).toNat)

/-- The power of ten of the first digit. The logarithm estimate is off by one at most. -/
def Parts.leadingPower (p : Parts) : Int :=
  let guess := ((Nat.log2 p.significand : Int) + p.exponent) * 1233 / 4096
  if p.reaches (guess + 1) then guess + 1
  else if p.reaches guess then guess
  else guess - 1

/-- Removes the zeros at the end of the digits, at most `fuel` of them. -/
def Decimal.stripZeros : Nat → Decimal → Decimal
  | 0, d => d
  | fuel + 1, d =>
    if d.digits ≠ 0 ∧ d.digits % 10 = 0 then stripZeros fuel ⟨d.digits / 10, d.exponent + 1⟩ else d

/-- Tries the grids with `size`, `size + 1`, … significant digits. -/
def Parts.shortestFrom (p : Parts) (tie : Tie) (leading : Int) : Nat → Nat → Decimal
  | 0, _ => ⟨0, 0⟩
  | more + 1, size =>
    let grid := leading + 1 - size
    match (p.interval grid).nearest? tie with
    | some digits => Decimal.stripZeros 18 ⟨digits, grid⟩
    | none => shortestFrom p tie leading more (size + 1)

/-- The decimal with the fewest digits that reads back as the double; of those the nearest to it.
Seventeen digits always suffice. -/
def Parts.shortest (p : Parts) (tie : Tie) : Decimal :=
  if p.significand = 0 then ⟨0, 0⟩ else p.shortestFrom tie p.leadingPower 17 1

end OnePassSql.Binary64
