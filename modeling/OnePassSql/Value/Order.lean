import OnePassSql.Value.Coercion

/-! Equality and the strict orders of values: null, then numbers, then texts, then blobs. -/

namespace OnePassSql.Value

/-- Equality within a kind; integers and reals are one kind. Null equals nothing. -/
def equal : Value → Value → Bool
  | integer m, integer n => m == n
  | real x, real y => x == y
  | integer m, real y => Float.ofInt m.toInt == y
  | real x, integer n => x == Float.ofInt n.toInt
  | text s, text t => s == t
  | blob a, blob b => a == b
  | _, _ => false

/-- Shorter blobs come first; blobs of one length are ordered byte by byte. -/
def blobLess (a b : List UInt8) : Bool :=
  decide (a.length < b.length) || (a.length == b.length && decide (a < b))

/-- Strictly smaller. Pairs that the order of kinds leaves open are compared as doubles, which
faults on a text that spells no number. -/
def less (v w : Value) : Except Fault Bool :=
  match v, w with
  | null, _ => .ok true
  | _, null => .ok false
  | integer _, text _ | integer _, blob _ | real _, text _ | real _, blob _ => .ok true
  | text _, blob _ => .ok true
  | text s, text t => .ok (decide (s < t))
  | blob a, blob b => .ok (blobLess a b)
  | integer m, integer n => .ok (decide (m < n))
  | v, w => do
    let x ← v.toReal
    let y ← w.toReal
    return decide (x < y)

/-- Strictly greater, with the same order of kinds. -/
def greater (v w : Value) : Except Fault Bool :=
  match v, w with
  | null, _ => .ok false
  | _, null => .ok true
  | text _, integer _ | text _, real _ | blob _, integer _ | blob _, real _ => .ok true
  | blob _, text _ => .ok true
  | text s, text t => .ok (decide (t < s))
  | blob a, blob b => .ok (blobLess b a)
  | integer m, integer n => .ok (decide (n < m))
  | v, w => do
    let x ← v.toReal
    let y ← w.toReal
    return decide (y < x)

end OnePassSql.Value
