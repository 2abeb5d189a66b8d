import OnePassSql.Database.Describe
import OnePassSql.Database.Query
import OnePassSql.Shell.Script
import OnePassSql.Table.Json

/-!
The shell: scripts, single statements and the interactive session, as functions from what is read
to what is printed.
-/

namespace OnePassSql.Shell

/-- Something printed: a result, or a complaint on the other channel. -/
inductive Printed where
  | out (text : String)
  | err (text : String)
deriving DecidableEq, Repr

/-- How the shell is started. `script` is the text of the script. -/
structure Options where
  script : Option String
  execute : Option String
  json : Bool
  bail : Bool
deriving DecidableEq, Repr

/-- The shell links no rows to records. -/
def noRecords : Records CellRecord := ⟨[]⟩

/-- The text of a result: JSON, or the grid of a table that has columns. -/
def resultText (json : Bool) (t : Table) : String :=
  if json then (t.toJson noRecords).pretty 0 ++ "\n"
  else if t.columns.isEmpty then ""
  else t.grid noRecords

/-- Carries out a statement: what it prints if it succeeds, and the database after it. -/
def perform (json : Bool) (db : Database) (sql : String) : Except Fault String × Database :=
  let reply := db.query noRecords sql []
  (reply.answer.map (resultText json), reply.database)

/-- The line that reports a failure. -/
def complaint (message : String) : Printed := .err ("Error: " ++ message ++ "\n")

/-- Carries out a statement and prints its result or its failure. -/
def performPrinting (json : Bool) (db : Database) (sql : String) : Printed × Database :=
  match perform json db sql with
  | (.ok text, db) => (.out text, db)
  | (.error fault, db) => (complaint fault.message, db)

/-- Carries out the statements of a script. The first failure ends it if `bail` is set; then the
last part tells so. -/
def runStatements (json bail : Bool) (db : Database) : List String → List Printed × Database × Bool
  | [] => ([], db, true)
  | sql :: rest =>
    match perform json db sql with
    | (.ok text, db) =>
      let (printed, db, finished) := runStatements json bail db rest
      (.out text :: printed, db, finished)
    | (.error fault, db) =>
      if bail then ([complaint ("statement failed: " ++ sql ++ ": " ++ fault.message)], db, false)
      else
        let (printed, db, finished) := runStatements json bail db rest
        (complaint fault.message :: printed, db, finished)

/-- Carries out a script. -/
def runScript (json bail : Bool) (db : Database) (script : String) :
    List Printed × Database × Bool :=
  runStatements json bail db (splitStatements script)

/-- An interactive session: the database, and the part of a statement read so far. -/
structure Session where
  database : Database
  pending : String

/-- What the session starts with. -/
def banner : String :=
  "PocketSQL v0.1.0\nType '.help' for help, '.exit' to quit\n\n"

/-- What is printed before a line is read. -/
def prompt (s : Session) : String :=
  if s.pending.isEmpty then "pocketsql> " else "        -> "

/-- What `.help` prints. -/
def helpText : String := "
Commands:
  .help             Show this help
  .tables           List tables
  .schema <table>   Describe a table
  .dump             Print every table
  .exit / .quit     Leave the shell

Statements end with ';' and may span several lines.
Set RUST_LOG=pocketsql=debug to trace statement execution.

"

/-- What a line leads to. -/
structure Turn where
  printed : List Printed
  session : Session
  goesOn : Bool

/-- The word that a description is asked for with. -/
def schemaWord : List Char := ".schema ".toList

/-- A line that starts with a point. -/
def command (json : Bool) (db : Database) (input : String) : List Printed × Database × Bool :=
  if input = ".exit" ∨ input = ".quit" then ([], db, false)
  else if input = ".help" then ([.out helpText], db, true)
  else if input = ".tables" then
    (db.tables.names.map fun name => .out (name ++ "\n"), db, true)
  else if input = ".dump" then ([.out (db.dump noRecords)], db, true)
  else if schemaWord.isPrefixOf input.toList then
    let table := String.ofList (Text.trimChars (input.toList.drop schemaWord.length))
    let (printed, db) := performPrinting json db ("DESC " ++ table)
    ([printed], db, true)
  else ([.err ("Unknown command: " ++ input ++ " (try .help)\n")], db, true)

/-- Takes a line. A command drops the part of a statement before it; any other line goes on with the
statement, and a semicolon at its end finishes it. -/
def turn (json : Bool) (s : Session) (line : String) : Turn :=
  let input := Text.trim line
  if input.toList.head? = some '.' then
    let warning :=
      if s.pending.isEmpty then [] else [Printed.err "Warning: incomplete statement discarded\n"]
    let (printed, db, goesOn) := command json s.database input
    ⟨warning ++ printed, ⟨db, ""⟩, goesOn⟩
  else if input.isEmpty then ⟨[], s, true⟩
  else
    let pending := s.pending ++ input ++ " "
    if input.toList.getLast? = some ';' then
      let (printed, db) := performPrinting json s.database (Text.trim pending)
      ⟨[printed], ⟨db, ""⟩, true⟩
    else ⟨[], ⟨s.database, pending⟩, true⟩

/-- The rest of a session, given the lines that will be read. -/
def converse (json : Bool) (s : Session) : List String → List Printed × Session
  | [] => ([.out (prompt s)], s)
  | line :: rest =>
    let t := turn json s line
    if t.goesOn then
      let (printed, last) := converse json t.session rest
      (.out (prompt s) :: (t.printed ++ printed), last)
    else (.out (prompt s) :: t.printed, t.session)

/-- A whole session. -/
def interact (json : Bool) (db : Database) (input : String) : List Printed × Session :=
  let (printed, last) := converse json ⟨db, ""⟩ (linesOf input)
  (.out banner :: printed, last)

/-- Everything that is printed, and whether the shell ends well. -/
structure Report where
  printed : List Printed
  succeeded : Bool

/-- Runs the shell: the script, then the single statement, or the session if neither is given. -/
def run (options : Options) (input : String) : Report :=
  let (printed, db, finished) :=
    match options.script with
    | some script => runScript options.json options.bail .standard script
    | none => ([], .standard, true)
  if !finished then ⟨printed, false⟩
  else match options.execute with
    | some sql =>
      match perform options.json db sql with
      | (.ok text, _) => ⟨printed ++ [.out text], true⟩
      | (.error fault, _) => ⟨printed ++ [complaint fault.message], false⟩
    | none =>
      if options.script.isSome then ⟨printed, true⟩
      else ⟨printed ++ (interact options.json db input).1, true⟩

namespace Report

/-- What is printed on the first channel. -/
def out (r : Report) : String :=
  String.join (r.printed.filterMap fun
    | .out text => some text
    | .err _ => none)

/-- What is printed on the second channel. -/
def err (r : Report) : String :=
  String.join (r.printed.filterMap fun
    | .err text => some text
    | .out _ => none)

/-- The exit code. -/
def code (r : Report) : Nat := if r.succeeded then 0 else 1

end Report

end OnePassSql.Shell
