import OnePassSql.Record
import OnePassSql.Text.Quoted
import OnePassSql.Value.Written

/-! Rows of a table. -/

namespace OnePassSql

/-- A row holds its cells or is linked to a record outside the table. -/
inductive Row where
  | owned (cells : List Value)
  | linked (record : RecordId)
deriving DecidableEq

namespace Row

variable {ρ : Type} [Record ρ]

/-- The row is linked to a record. -/
def isLinked : Row → Bool
  | linked _ => true
  | owned _ => false

/-- The value in a column, null past the end. -/
def cell (records : Records ρ) (row : Row) (column : Nat) : Value :=
  match row with
  | owned cells => cells[column]?.getD .null
  | linked id => records.cell id column

/-- Reals in a row's description: an exponent below `10 ^ -4` and from `10 ^ 16` on. -/
def realLayout : Binary64.Layout := ⟨some (-4), some 16, false, .up⟩

/-- Items between brackets, with commas. -/
def bracketed (items : List String) : String := "[" ++ ", ".intercalate items ++ "]"

/-- A value with its kind. -/
def describeValue : Value → String
  | .null => "Null"
  | .integer n => "Integer(" ++ toString n.toInt ++ ")"
  | .real x => "Real(" ++ realLayout.write x ++ ")"
  | .text s => "Text(" ++ Text.quoted s ++ ")"
  | .blob bytes => "Blob(" ++ bracketed (bytes.map fun b => toString b.toNat) ++ ")"

/-- A description of the row for diagnosis. The record behind a linked row is not looked at. -/
def describe : Row → String
  | owned cells => "Owned(" ++ bracketed (cells.map describeValue) ++ ")"
  | linked _ => "Linked(..)"

end Row

end OnePassSql
