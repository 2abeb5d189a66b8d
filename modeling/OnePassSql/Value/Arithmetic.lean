import OnePassSql.Value.Coercion

/-!
Arithmetic on values. Two integers give an integer if the exact result fits 64 bits and a real if
it does not; any other pair is computed in doubles. A null operand gives null.
-/

namespace OnePassSql.Value

/-- One of the operations that are total on integers: exact on integers, rounded on doubles. -/
def compute (exact : Int → Int → Int) (rounded : Float → Float → Float) (v w : Value) :
    Except Fault Value :=
  match v, w with
  | null, _ => .ok null
  | _, null => .ok null
  | integer m, integer n =>
    match narrow? (exact m.toInt n.toInt) with
    | some r => .ok (integer r)
    | none => .ok (real (rounded (Float.ofInt m.toInt) (Float.ofInt n.toInt)))
  | v, w => do
    let x ← v.toReal
    let y ← w.toReal
    return real (rounded x y)

/-- The sum of two values. -/
def add : Value → Value → Except Fault Value := compute (· + ·) (· + ·)

/-- The difference of two values. -/
def sub : Value → Value → Except Fault Value := compute (· - ·) (· - ·)

/-- The product of two values. -/
def mul : Value → Value → Except Fault Value := compute (· * ·) (· * ·)

/-- The quotient, toward zero on integers. Division by zero gives null. The divisor is read before
the dividend. -/
def div (v w : Value) : Except Fault Value :=
  match v, w with
  | null, _ => .ok null
  | _, null => .ok null
  | integer m, integer n =>
    if n = 0 then .ok null
    else match narrow? (m.toInt.tdiv n.toInt) with
      | some r => .ok (integer r)
      | none => .ok (real (Float.ofInt m.toInt / Float.ofInt n.toInt))
  | v, w => do
    let y ← w.toReal
    if y == 0.0 then return null
    let x ← v.toReal
    return real (x / y)

/-- The remainder, with the sign of the dividend. Division by zero gives null. -/
def mod (v w : Value) : Except Fault Value :=
  match v, w with
  | null, _ => .ok null
  | _, null => .ok null
  | integer m, integer n =>
    if n = 0 then .ok null else .ok (integer (Int64.ofInt (m.toInt.tmod n.toInt)))
  | v, w => do
    let y ← w.toReal
    if y == 0.0 then return null
    let x ← v.toReal
    return real (Binary64.remainder x y)

/-- Moves the bits of `a` up by `n` places; what leaves the word is lost. -/
def shiftUp (a : Int64) (n : Nat) : Int64 :=
  if 64 ≤ n then 0 else a <<< Int64.ofNat n

/-- Moves the bits of `a` down by `n` places; the sign fills the gap. -/
def shiftDown (a : Int64) (n : Nat) : Int64 :=
  if 64 ≤ n then (if a < 0 then -1 else 0) else a >>> Int64.ofNat n

/-- Moves the bits of `a` up by `n` places, or down if `n` is negative. -/
def shiftBy (a : Int64) (n : Int) : Int64 :=
  if n < 0 then shiftDown a n.natAbs else shiftUp a n.natAbs

/-- The value as an integer, for shifting: reals and spelled numbers are truncated. -/
def toShiftOperand : Value → Except Fault Int64
  | integer n => .ok n
  | v => truncate <$> v.toReal

/-- A shift by the amount that `amount` makes of the right operand. -/
def shift (amount : Int → Int) (v w : Value) : Except Fault Value :=
  if v.isNull || w.isNull then .ok null
  else do
    let a ← v.toShiftOperand
    let n ← w.toShiftOperand
    return integer (shiftBy a (amount n.toInt))

/-- The left shift; a negative amount shifts to the right. -/
def shiftLeft : Value → Value → Except Fault Value := shift id

/-- The right shift; a negative amount shifts to the left. -/
def shiftRight : Value → Value → Except Fault Value := shift (- ·)

/-- The negated value. A text that spells an integer stays an integer; negating wraps around at the
least integer. -/
def negate : Value → Except Fault Value
  | null => .ok null
  | integer n => .ok (integer (-n))
  | real x => .ok (real (-x))
  | text s =>
    match integerOfText? s with
    | some n => .ok (integer (-n))
    | none => (fun x => real (-x)) <$> parseReal s
  | blob _ => .ok (integer 0)

/-- The two texts one after the other. -/
def concat (v w : Value) : Value :=
  if v.isNull || w.isNull then null else text (v.asText ++ w.asText)

end OnePassSql.Value
