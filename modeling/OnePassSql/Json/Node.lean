import OnePassSql.Json.Number

/-!
JSON text taken apart. Numbers and texts are kept as written, so that parts nobody asks for need
not have a value.
-/

namespace OnePassSql.Json

/-- A piece of a text: a character as it stands, or a 16-bit unit from an escape. -/
inductive Piece where
  | char (c : Char)
  | unit (n : Nat)

/-- A JSON value as written. -/
inductive Node where
  | null
  | bool (b : Bool)
  | number (n : Number)
  | text (pieces : List Piece)
  | array (items : List Node)
  | object (members : List (List Piece × Node))

/-- The first unit of a pair. -/
def isHigh (n : Nat) : Bool := decide (0xD800 ≤ n) && decide (n < 0xDC00)

/-- The second unit of a pair. -/
def isLow (n : Nat) : Bool := decide (0xDC00 ≤ n) && decide (n < 0xE000)

/-- The characters of a text. Two units of a pair are one character; alone they are none. -/
def characters? : List Piece → Option (List Char)
  | [] => some []
  | .char c :: rest => (characters? rest).map (c :: ·)
  | .unit n :: rest =>
    if isHigh n then
      match rest with
      | .unit m :: rest =>
        if isLow m then
          (characters? rest).map
            (Char.ofNat (0x10000 + (n - 0xD800) * 0x400 + (m - 0xDC00)) :: ·)
        else none
      | _ => none
    else if isLow n then none
    else (characters? rest).map (Char.ofNat n :: ·)

/-- The text that the pieces spell. -/
def string? (pieces : List Piece) : Option String :=
  (characters? pieces).map String.ofList

namespace Node

/-- The node's truth value. -/
def bool? : Node → Option Bool
  | bool b => some b
  | _ => none

/-- The node's integer. -/
def int? : Node → Option Int
  | number n => n.toInt?
  | _ => none

/-- The node's number as a real. -/
def real? : Node → Option Float
  | number n => n.toReal?
  | _ => none

/-- The node's text. -/
def string? : Node → Option String
  | text pieces => Json.string? pieces
  | _ => none

end Node

end OnePassSql.Json
