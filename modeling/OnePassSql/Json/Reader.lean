import OnePassSql.Json.Node

/-!
JSON text read into nodes. Each reader takes what it knows from the start of the text and gives the
rest. The nesting is bounded by a step budget taken from the text's length.
-/

namespace OnePassSql.Json

/-- White space between tokens. -/
def isSpace (c : Char) : Bool := [' ', '\t', '\n', '\r'].contains c

/-- The text from the first character that is no white space. -/
def skipSpace (cs : List Char) : List Char := cs.dropWhile isSpace

/-- The value of a hexadecimal digit. -/
def hexValue? (c : Char) : Option Nat :=
  if c.isDigit then some (c.toNat - '0'.toNat)
  else if 'a' ≤ c ∧ c ≤ 'f' then some (c.toNat - 'a'.toNat + 10)
  else if 'A' ≤ c ∧ c ≤ 'F' then some (c.toNat - 'A'.toNat + 10)
  else none

/-- A unit written as four hexadecimal digits. -/
def readUnit? : List Char → Option (Nat × List Char)
  | a :: b :: c :: d :: rest => do
    let a ← hexValue? a
    let b ← hexValue? b
    let c ← hexValue? c
    let d ← hexValue? d
    return (((a * 16 + b) * 16 + c) * 16 + d, rest)
  | _ => none

/-- The character that a letter behind a backslash stands for. -/
def escaped? (c : Char) : Option Char :=
  [('"', '"'), ('\\', '\\'), ('/', '/'), ('b', '\x08'), ('f', '\x0c'), ('n', '\n'), ('r', '\r'),
    ('t', '\t')].lookup c

/-- The pieces of a text up to its closing quote. Control characters cannot stand in it. -/
def readPieces? : Nat → List Char → Option (List Piece × List Char)
  | 0, _ => none
  | _, [] => none
  | steps + 1, c :: rest =>
    if c = '"' then some ([], rest)
    else if c = '\\' then
      match rest with
      | 'u' :: rest => do
        let (n, rest) ← readUnit? rest
        let (pieces, rest) ← readPieces? steps rest
        return (.unit n :: pieces, rest)
      | e :: rest => do
        let d ← escaped? e
        let (pieces, rest) ← readPieces? steps rest
        return (.char d :: pieces, rest)
      | [] => none
    else if c.toNat < 32 then none
    else do
      let (pieces, rest) ← readPieces? steps rest
      return (.char c :: pieces, rest)

/-- The digits before the point: a zero alone, or any that start with another digit. -/
def readWhole? (cs : List Char) : Option (List Char × List Char) :=
  let (ds, rest) := Binary64.spanDigits cs
  if ds.isEmpty ∨ (ds.head? = some '0' ∧ 1 < ds.length) then none else some (ds, rest)

/-- The digits behind a point, at least one; none if there is no point. -/
def readFraction? : List Char → Option (List Char × List Char)
  | '.' :: rest =>
    let (ds, rest) := Binary64.spanDigits rest
    if ds.isEmpty then none else some (ds, rest)
  | rest => some ([], rest)

/-- The exponent, if there is one. -/
def readPower? : List Char → Option (Option (Bool × List Char) × List Char)
  | c :: rest =>
    if c = 'e' ∨ c = 'E' then
      let (below, rest) := Binary64.splitSign rest
      let (ds, rest) := Binary64.spanDigits rest
      if ds.isEmpty then none else some (some (below, ds), rest)
    else some (none, c :: rest)
  | [] => some (none, [])

/-- A number. -/
def readNumber? (cs : List Char) : Option (Number × List Char) := do
  let (negative, cs) := if cs.head? = some '-' then (true, cs.tail) else (false, cs)
  let (whole, rest) ← readWhole? cs
  let (fraction, rest) ← readFraction? rest
  let (exponent, rest) ← readPower? rest
  return (⟨negative, whole, fraction, exponent⟩, rest)

/-- The text behind the word that it starts with. -/
def afterWord? (word : String) (cs : List Char) : Option (List Char) :=
  if word.toList.isPrefixOf cs then some (cs.drop word.length) else none

mutual

/-- A value, after white space. -/
def readNode? : Nat → List Char → Option (Node × List Char)
  | 0, _ => none
  | steps + 1, cs =>
    match skipSpace cs with
    | [] => none
    | '"' :: rest => do
      let (pieces, rest) ← readPieces? (rest.length + 1) rest
      return (.text pieces, rest)
    | '[' :: rest =>
      match skipSpace rest with
      | ']' :: rest => some (.array [], rest)
      | rest => do
        let (items, rest) ← readItems? steps rest
        return (.array items, rest)
    | '\x7b' :: rest =>
      match skipSpace rest with
      | '\x7d' :: rest => some (.object [], rest)
      | rest => do
        let (members, rest) ← readMembers? steps rest
        return (.object members, rest)
    | 'n' :: rest => (afterWord? "null" ('n' :: rest)).map fun rest => (.null, rest)
    | 't' :: rest => (afterWord? "true" ('t' :: rest)).map fun rest => (.bool true, rest)
    | 'f' :: rest => (afterWord? "false" ('f' :: rest)).map fun rest => (.bool false, rest)
    | rest => (readNumber? rest).map fun (n, rest) => (.number n, rest)

/-- The items of an array up to its closing bracket; there is at least one. -/
def readItems? : Nat → List Char → Option (List Node × List Char)
  | 0, _ => none
  | steps + 1, cs => do
    let (item, rest) ← readNode? steps cs
    match skipSpace rest with
    | ']' :: rest => return ([item], rest)
    | ',' :: rest =>
      let (items, rest) ← readItems? steps rest
      return (item :: items, rest)
    | _ => none

/-- The members of an object up to its closing brace; there is at least one. -/
def readMembers? : Nat → List Char → Option (List (List Piece × Node) × List Char)
  | 0, _ => none
  | steps + 1, cs => do
    match skipSpace cs with
    | '"' :: rest =>
      let (key, rest) ← readPieces? (rest.length + 1) rest
      match skipSpace rest with
      | ':' :: rest =>
        let (value, rest) ← readNode? steps rest
        match skipSpace rest with
        | '\x7d' :: rest => return ([(key, value)], rest)
        | ',' :: rest =>
          let (members, rest) ← readMembers? steps rest
          return ((key, value) :: members, rest)
        | _ => none
      | _ => none
    | _ => none

end

/-- Reads a whole text as one value. -/
def read? (s : String) : Option Node := do
  let (node, rest) ← readNode? (2 * s.length + 2) s.toList
  if (skipSpace rest).isEmpty then return node else none

end OnePassSql.Json
