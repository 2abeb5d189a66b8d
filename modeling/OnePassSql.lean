import OnePassSql.Main
import OnePassSql.Token.Lexer
import OnePassSql.Workspace
import OnePassSql.Proofs.Parser.Progress
import OnePassSql.Proofs.Parser.Clauses
import OnePassSql.Proofs.Result
import OnePassSql.Proofs.Value.Kinds
import OnePassSql.Proofs.Statement.Insert
import OnePassSql.Proofs.Statement.Atomicity
import OnePassSql.Proofs.Table.WellTyped
import OnePassSql.Proofs.Statement.Effects
import OnePassSql.Proofs.Database.Frame
import OnePassSql.Proofs.Database.Typing
import OnePassSql.Proofs.Statement.Selecting
import OnePassSql.Proofs.Statement.Budget
import OnePassSql.Proofs.Table.Accumulation
import OnePassSql.Proofs.Statement.Compound
import OnePassSql.Proofs.Database.Invariants
import OnePassSql.Proofs.Database.Parameters
import OnePassSql.Proofs.Table.Telling
import OnePassSql.Proofs.Statement.Records
import OnePassSql.Proofs.Database.Records
import OnePassSql.Proofs.Parser.Budget
import OnePassSql.Proofs.Parser.Binding
import OnePassSql.Proofs.Parser.Placeholders
import OnePassSql.Proofs.Alike.Comparison
import OnePassSql.Proofs.Alike.Streams
import OnePassSql.Proofs.Alike.Words
import OnePassSql.Proofs.Alike.Operators
import OnePassSql.Proofs.Alike.Operands
import OnePassSql.Proofs.Alike.Expression
import OnePassSql.Proofs.Alike.Clauses
import OnePassSql.Proofs.Alike.Definitions
import OnePassSql.Proofs.Alike.Session
import OnePassSql.Proofs.Alike.Select
import OnePassSql.Proofs.Alike.Statement
import OnePassSql.Proofs.Token.Cutting
import OnePassSql.Proofs.Alike.Trailing
import OnePassSql.Proofs.Database.Reply
import OnePassSql.Proofs.Database.Layout
import OnePassSql.Proofs.Database.Terminator
import OnePassSql.Proofs.Database.TrailingClauses
import OnePassSql.Proofs.Outcome
import OnePassSql.Proofs.Faults.Tokens
import OnePassSql.Proofs.Faults.Evaluation
import OnePassSql.Proofs.Faults.Tables
import OnePassSql.Proofs.Faults.Expression
import OnePassSql.Proofs.Faults.Clauses
import OnePassSql.Proofs.Faults.Definitions
import OnePassSql.Proofs.Faults.Session
import OnePassSql.Proofs.Faults.Select
import OnePassSql.Proofs.Faults.Statement
import OnePassSql.Proofs.Token.Places
import OnePassSql.Proofs.Database.Taxonomy
import OnePassSql.Proofs.Database.Positions
import OnePassSql.Proofs.Database.TableDefinitions
import OnePassSql.Proofs.Statement.Locality
import OnePassSql.Proofs.Database.Commuting
import OnePassSql.Proofs.Token.Classes
import OnePassSql.Proofs.Token.Tokenisation
import OnePassSql.Proofs.Expr.Typing
import OnePassSql.Proofs.Table.Projection
import OnePassSql.Proofs.Parser.Equations
import OnePassSql.Proofs.Expr.OperatorTree
import OnePassSql.Proofs.Parser.Climbing
import OnePassSql.Proofs.Value.Digits
import OnePassSql.Proofs.Parser.Chains
import OnePassSql.Proofs.Parser.Precedence
import OnePassSql.Proofs.Parser.RoundTrip
import OnePassSql.Proofs.Shell.Splitting
import OnePassSql.Proofs.Shell.Joining
import OnePassSql.Proofs.Database.Counters
import OnePassSql.Proofs.Table.Composition
import OnePassSql.Proofs.Alike.Sources
import OnePassSql.Proofs.Database.DerivedTables
import OnePassSql.Proofs.Parser.Declarations
import OnePassSql.Proofs.Parser.Columns
import OnePassSql.Proofs.Database.DeclaredTables
import OnePassSql.Proofs.Parser.Suffixes
import OnePassSql.Proofs.Shell.Respacing
import OnePassSql.Proofs.Shell.Conversing
import OnePassSql.Proofs.Parser.Frame
import OnePassSql.Proofs.Parser.QuestionMarks
import OnePassSql.Proofs.Parser.LeastInteger
import OnePassSql.Proofs.Parser.Grammar
import OnePassSql.Proofs.Parser.Derivations
import OnePassSql.Proofs.Parser.ConstantExpressions
import OnePassSql.Proofs.Parser.Completeness
import OnePassSql.Proofs.Parser.Readings
import OnePassSql.Proofs.Parser.MembershipLists
import OnePassSql.Proofs.Token.Cursor
import OnePassSql.Proofs.Parser.PushingBack
import OnePassSql.Proofs.Parser.Scanning
import OnePassSql.Proofs.Parser.Consumption
import OnePassSql.Proofs.Table.Predicates
import OnePassSql.Proofs.Table.SparseWrites
import OnePassSql.Proofs.Table.Uniting
import OnePassSql.Proofs.NameMap
import OnePassSql.Proofs.Table.Objects
import OnePassSql.Proofs.Table.Alignment
import OnePassSql.Proofs.Expr.Labels
import OnePassSql.Proofs.Value.Ordering
import OnePassSql.Proofs.Table.Comparisons
import OnePassSql.Proofs.Value.Arithmetic
import OnePassSql.Proofs.Expr.IntegerTrees
import OnePassSql.Proofs.Value.Limits
import OnePassSql.Proofs.Value.Shifting
import OnePassSql.Proofs.Table.Readers
import OnePassSql.Proofs.Rounds
import OnePassSql.Proofs.Parser.Rounds
import OnePassSql.Proofs.Statement.Rounds
import OnePassSql.Proofs.Statement.Segments
import OnePassSql.Proofs.Parser.ScanningRounds
import OnePassSql.Proofs.Database.Termination
