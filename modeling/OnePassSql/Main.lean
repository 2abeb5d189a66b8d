import OnePassSql.Shell.Session

/-! The command line. -/

namespace OnePassSql.Shell

/-- The arguments of the command line; `path` is the file of the script. -/
structure Arguments where
  path : Option String
  execute : Option String
  json : Bool
  bail : Bool

/-- No argument is given. -/
def Arguments.none : Arguments := ⟨Option.none, Option.none, false, false⟩

/-- Reads the arguments, none if one of them is not known. -/
def Arguments.read? (a : Arguments) : List String → Option Arguments
  | [] => some a
  | "--json" :: rest => { a with json := true }.read? rest
  | "--bail" :: rest => { a with bail := true }.read? rest
  | "-e" :: sql :: rest => { a with execute := some sql }.read? rest
  | "--execute" :: sql :: rest => { a with execute := some sql }.read? rest
  | argument :: rest =>
    if "--execute=".toList.isPrefixOf argument.toList then
      { a with execute := some (String.ofList (argument.toList.drop 10)) }.read? rest
    else if argument.toList.head? = some '-' ∨ a.path.isSome then Option.none
    else { a with path := some argument }.read? rest

/-- Prints on the two channels. -/
def print (printed : List Printed) : IO Unit := do
  for p in printed do
    match p with
    | .out text => IO.print text
    | .err text => IO.eprint text
  (← IO.getStdout).flush

/-- Reads and answers lines until the input ends or a line ends the session. -/
partial def talk (json : Bool) (s : Session) : IO Unit := do
  print [.out (prompt s)]
  let line ← (← IO.getStdin).getLine
  if line.isEmpty then return
  let t := turn json s line
  print t.printed
  if t.goesOn then talk json t.session

end OnePassSql.Shell

open OnePassSql.Shell in
/-- Runs the shell on the arguments of the command line. -/
def main (arguments : List String) : IO UInt32 := do
  match Arguments.none.read? arguments with
  | none =>
    IO.eprintln "usage: [--json] [--bail] [--execute SQL] [SCRIPT]"
    return 2
  | some a =>
    if a.path.isNone ∧ a.execute.isNone then
      print [.out banner]
      talk a.json ⟨.standard, ""⟩
      return 0
    else
      let script ← a.path.mapM fun path => IO.FS.readFile path
      let report := run ⟨script, a.execute, a.json, a.bail⟩ ""
      print report.printed
      return UInt32.ofNat report.code
