import ScalarScript.Builtin
import ScalarScript.CommandLine
import ScalarScript.Cursor
import ScalarScript.Decimal.Notation
import ScalarScript.Decimal.Reading
import ScalarScript.Decimal.Shortest
import ScalarScript.Double
import ScalarScript.Execution
import ScalarScript.Expr
import ScalarScript.Expr.Eval
import ScalarScript.Expr.Parser
import ScalarScript.Failure
import ScalarScript.Frame
import ScalarScript.Integer
import ScalarScript.Interpreter
import ScalarScript.Limits
import ScalarScript.Main
import ScalarScript.ParseError
import ScalarScript.Parser
import ScalarScript.Position
import ScalarScript.Program
import ScalarScript.Program.Parser
import ScalarScript.Program.Run
import ScalarScript.Proofs.Grammar
import ScalarScript.Proofs.Limits
import ScalarScript.Proofs.Parser.Expression
import ScalarScript.Proofs.Parser.Program
import ScalarScript.Proofs.Parser.Reading
import ScalarScript.Proofs.Parser.Simulation
import ScalarScript.Proofs.Parser.Statement
import ScalarScript.Proofs.Run.Outcome
import ScalarScript.Proofs.Run.Simulation
import ScalarScript.Proofs.Run.Typing
import ScalarScript.Proofs.Token.Segmentation
import ScalarScript.Proofs.Token.Spelling
import ScalarScript.Proofs.Tree
import ScalarScript.Run
import ScalarScript.RuntimeError
import ScalarScript.SourceFile
import ScalarScript.Stmt
import ScalarScript.Stmt.Exec
import ScalarScript.Stmt.Parser
import ScalarScript.Terminal
import ScalarScript.Text.Alphabetic
import ScalarScript.Text.Blank
import ScalarScript.Text.Numeric
import ScalarScript.Text.Ranges
import ScalarScript.Text.Utf8
import ScalarScript.Token
import ScalarScript.Token.Error
import ScalarScript.Token.Scanner
import ScalarScript.Token.Source
import ScalarScript.Value
import ScalarScript.Value.Conversion
import ScalarScript.Value.Order
import ScalarScript.Proofs.Run.Machine
import ScalarScript.Proofs.Run.Nesting
import ScalarScript.Proofs.Run.Termination
import ScalarScript.Proofs.Jumps
import ScalarScript.Proofs.Parser.Demand
import ScalarScript.Proofs.Run.Extension
import ScalarScript.Proofs.Run.Likeness
import ScalarScript.Proofs.Run.Reuse
import ScalarScript.Proofs.Token.Places
import ScalarScript.Proofs.Token.Recognition
import ScalarScript.Proofs.Diagnostics
import ScalarScript.Proofs.Layout
import ScalarScript.Proofs.Text.Utf8
import ScalarScript.Proofs.Run.Terminals
import ScalarScript.Proofs.Token.Strings
import ScalarScript.Proofs.Parser.Progress
import ScalarScript.Proofs.Parser.Termination
import ScalarScript.Proofs.Integer
import ScalarScript.Proofs.Expr.Integers
import ScalarScript.Proofs.Expr.Sums
import ScalarScript.Proofs.Double.Value
import ScalarScript.Proofs.Double.Nearest
import ScalarScript.Proofs.Value.Order
import ScalarScript.Proofs.Value.Extremes
import ScalarScript.Proofs.Value.Coherence
import ScalarScript.Proofs.Token.Progress
import ScalarScript.Proofs.Consistency
import ScalarScript.Proofs.Declarations
import ScalarScript.Proofs.Run.Visits
import ScalarScript.Proofs.Expr.Grouping
import ScalarScript.Proofs.Integer.Text
import ScalarScript.Proofs.Integer.RoundTrip
import ScalarScript.Proofs.Double.Conversion
import ScalarScript.Proofs.Parser.Optional
