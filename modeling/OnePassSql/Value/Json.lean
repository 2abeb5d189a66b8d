import OnePassSql.Json.Basic
import OnePassSql.Json.Reader
import OnePassSql.Value.Coercion

/-!
Values in JSON, in two forms: the plain one that result tables are shown in, and the tagged one
that keeps the kind and can be read back.
-/

namespace OnePassSql.Value

/-- The plain form. Blobs are shown as their literals, and reals that are no finite number as null. -/
def toJson : Value → Json
  | null => .null
  | integer n => .integer n.toInt
  | real x =>
    match Binary64.decode x with
    | .finite _ => .real x
    | _ => .null
  | text s => .text s
  | blob bytes => .text (blob bytes).written

/-- The tagged form: the kind as the one key of an object. Null is a word. -/
def toTaggedJson : Value → Json
  | null => .text "Null"
  | integer n => .object [("Integer", .integer n.toInt)]
  | real x => .object [("Real", .real x)]
  | text s => .object [("Text", .text s)]
  | blob bytes => .object [("Blob", .array (bytes.map fun b => .integer b.toNat))]

/-- A byte from a JSON number. -/
def byteOfNode? (node : Json.Node) : Option UInt8 := do
  let n ← node.int?
  if 0 ≤ n ∧ n < 256 then return UInt8.ofNat n.toNat else none

/-- The value that a payload is under its tag. -/
def ofTagged? (tag : String) (payload : Json.Node) : Option Value :=
  if tag = "Null" then
    match payload with
    | .null => some null
    | _ => none
  else if tag = "Integer" then do
    let n ← payload.int?
    let n ← narrow? n
    return integer n
  else if tag = "Real" then payload.real?.map real
  else if tag = "Text" then payload.string?.map text
  else if tag = "Blob" then
    match payload with
    | .array items => (items.mapM byteOfNode?).map blob
    | _ => none
  else none

/-- Reads the tagged form. -/
def ofNode? : Json.Node → Option Value
  | .text pieces => do
    let tag ← Json.string? pieces
    if tag = "Null" then return null else none
  | .object [(key, payload)] => do
    let tag ← Json.string? key
    ofTagged? tag payload
  | _ => none

/-- Reads the tagged form from text. -/
def ofJsonText? (s : String) : Option Value := do
  let node ← Json.read? s
  ofNode? node

end OnePassSql.Value
