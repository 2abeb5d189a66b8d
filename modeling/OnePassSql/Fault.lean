import OnePassSql.ColumnType

/-!
Faults, as causes. A statement fails with one fault; its wording is `Fault.message` and nothing
else. `Fault.annotate` puts the text of the statement into a fault that leaves a query.
-/

namespace OnePassSql

/-- Why a text is no statement or expression. -/
inductive ParseProblem where
  /-- One of these words, or a token of this description, should have stood here. -/
  | expected (alternatives : List String)
  | numberOutOfRange
  | parameterOutOfRange
deriving DecidableEq, Repr

/-- Why a statement that reads well cannot be carried out. -/
inductive SemanticProblem where
  | columnWithoutTable (name : String)
  | noSuchColumn (name : String)
  | columnOutsideRow (name : String)
  | columnNotInTable (column table : String)
  | tableExists (name : String)
  | tableMissing (name : String)
  | tooManyValues
  | tooFewValues
  | noTables
deriving DecidableEq, Repr

/-- What the language has and this library does not do. -/
inductive Feature where
  | intersect
  | except
  | join (operator : String)
  | membership
  | unknownFunction (name : String)
  | functionType (name : String)
  /-- A first word that was taken and that no statement is listed for. -/
  | statementKeyword
  /-- A word behind CREATE that was taken and that no kind of object is listed for. -/
  | createKind
deriving DecidableEq, Repr

/-- Why a call is refused before any SQL is looked at. -/
inductive ArgumentProblem where
  | columnIndex (index : Nat)
  | pragma
deriving DecidableEq, Repr

/-- Why something failed. Positions count characters from the start of the text. -/
inductive Fault where
  /-- A character that starts no token. -/
  | lexical (ch : Char) (position : Nat)
  | parse (problem : ParseProblem) (position : Nat)
  | semantic (problem : SemanticProblem)
  | unsupported (feature : Feature)
  /-- A text that does not read as a value of the type. -/
  | coercion (text : String) (target : ColumnType)
  /-- A parse fault together with the statement it was found in. -/
  | misread (problem : ParseProblem) (position : Nat) (sql : String)
  /-- A semantic fault together with the statement it was found in. -/
  | refused (problem : SemanticProblem) (sql : String)
  | argument (problem : ArgumentProblem)
  /-- The database was closed. -/
  | dropped
  /-- The step budget of a reading loop ran out. Budgets are taken from the number of tokens left,
  so no text leads here. -/
  | exhausted
deriving DecidableEq, Repr

/-- "A, B or C" -/
def alternatives : List String → String
  | [] => ""
  | [only] => only
  | [first, last] => first ++ " or " ++ last
  | first :: rest => first ++ ", " ++ alternatives rest

namespace ParseProblem

/-- The wording of a parse problem, without its position. -/
def message : ParseProblem → String
  | expected words => alternatives words ++ " expected"
  | numberOutOfRange => "Number out of range"
  | parameterOutOfRange => "Parameter index out of range"

end ParseProblem

/-- The text between double quotes. -/
def doubleQuoted (name : String) : String := "\"" ++ name ++ "\""

namespace SemanticProblem

/-- The wording of a semantic problem. -/
def message : SemanticProblem → String
  | columnWithoutTable name => "Column " ++ doubleQuoted name ++ " referenced without a table"
  | noSuchColumn name => "No such column: " ++ name
  | columnOutsideRow name => "Column " ++ doubleQuoted name ++ " referenced outside of a row"
  | columnNotInTable column table =>
    "Column " ++ doubleQuoted column ++ " not present in table " ++ doubleQuoted table
  | tableExists name => "Table " ++ doubleQuoted name ++ " already exists"
  | tableMissing name => "Table " ++ doubleQuoted name ++ " does not exist"
  | tooManyValues => "More values than columns"
  | tooFewValues => "Fewer values than columns"
  | noTables => "No tables specified"

end SemanticProblem

namespace Feature

/-- What is said about a missing feature. -/
def message : Feature → String
  | intersect => "INTERSECT not implemented"
  | except => "EXCEPT not implemented"
  | join operator => operator ++ " join not implemented"
  | membership => "IN expression not implemented"
  | unknownFunction name => "Unknown SQL function: " ++ name
  | functionType name => "Type of function " ++ name ++ " not implemented"
  | statementKeyword => "unhandled statement keyword"
  | createKind => "unhandled CREATE kind"

end Feature

namespace ArgumentProblem

/-- What is said about a refused argument. -/
def message : ArgumentProblem → String
  | columnIndex index => "Column index " ++ toString index ++ " out of range"
  | pragma => "Unsupported pragma"

end ArgumentProblem

namespace Fault

/-- The sign that stands between the two halves of a statement where reading it failed. -/
def hereMark : String := "<<here>>"

/-- The statement with a mark before the character at `position`. -/
def marked (sql : String) (position : Nat) : String :=
  String.ofList (sql.toList.take position) ++ hereMark
    ++ String.ofList (sql.toList.drop position)

/-- The wording of a fault. -/
def message : Fault → String
  | lexical ch position => "Unexpected character '" ++ ch.toString ++ "' at " ++ toString position
  | parse problem position => problem.message ++ " at " ++ toString position
  | semantic problem => problem.message
  | unsupported feature => "Internal error: " ++ feature.message
  | coercion text target => "Cannot convert " ++ text ++ " to " ++ target.name
  | misread problem position sql =>
    "Invalid SQL: " ++ problem.message ++ " at " ++ toString position ++ ": " ++ marked sql position
  | refused problem sql => "Invalid SQL: " ++ problem.message ++ ": " ++ sql
  | argument problem => "Invalid argument: " ++ problem.message
  | dropped => "Cannot perform query on a dropped database"
  | exhausted => "Internal error: step budget exhausted"

/-- The fault as a query reports it: parse and semantic faults carry the statement. -/
def annotate (sql : String) : Fault → Fault
  | parse problem position => misread problem position sql
  | semantic problem => refused problem sql
  | fault => fault

/-- The fault tells of something missing from the library rather than of bad input. -/
def isInternal : Fault → Bool
  | unsupported _ => true
  | exhausted => true
  | _ => false

/-- The fault is one that a query reports together with its statement. -/
def isInvalidSql : Fault → Bool
  | misread .. => true
  | refused .. => true
  | _ => false

end Fault

/-- Goes on with a value or its fault. -/
def settle {σ α : Type} : Except Fault α → EStateM Fault σ α
  | .ok a => pure a
  | .error fault => throw fault

end OnePassSql
