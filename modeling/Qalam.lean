import Qalam.Analysis.Basic
import Qalam.Analysis.Expression
import Qalam.Analysis.Statement
import Qalam.Command
import Qalam.Command.Arithmetic
import Qalam.Command.Builtin
import Qalam.Command.Calculation
import Qalam.Command.Condition
import Qalam.Command.Edit
import Qalam.Command.Escape
import Qalam.Command.Expansion
import Qalam.Command.Filter
import Qalam.Command.Fraction
import Qalam.Command.Glyph
import Qalam.Command.Grammar
import Qalam.Command.Level
import Qalam.Command.Octets
import Qalam.Command.Pattern
import Qalam.Command.Print
import Qalam.Command.Programs
import Qalam.Command.Quoting
import Qalam.Command.Regex
import Qalam.Command.Run
import Qalam.Command.Script
import Qalam.Command.Shell
import Qalam.CommandLine
import Qalam.Compiler
import Qalam.Config
import Qalam.Decimal.Binary64
import Qalam.Decimal.Layout
import Qalam.Decimal.Shortest
import Qalam.Entity
import Qalam.Fault.Semantic
import Qalam.Fault.Syntax
import Qalam.Files
import Qalam.Files.Path
import Qalam.Invocation
import Qalam.JavaScript.Expression
import Qalam.JavaScript.Statement
import Qalam.Main
import Qalam.Naming.Oracle
import Qalam.Naming.Rename
import Qalam.Naming.Runner
import Qalam.Naming.Sanitize
import Qalam.Naming.Table
import Qalam.Parse.Basic
import Qalam.Parse.Expression
import Qalam.Parse.Statement
import Qalam.Position
import Qalam.Proofs.Checking.Annotation
import Qalam.Proofs.Checking.Constants
import Qalam.Proofs.Checking.Continuing
import Qalam.Proofs.Checking.DistinctKeys
import Qalam.Proofs.Checking.Expression
import Qalam.Proofs.Checking.Extension
import Qalam.Proofs.Checking.Flow
import Qalam.Proofs.Checking.Placement
import Qalam.Proofs.Checking.Rebinding
import Qalam.Proofs.Checking.Rules
import Qalam.Proofs.Checking.Run
import Qalam.Proofs.Checking.Statement
import Qalam.Proofs.Checking.Table
import Qalam.Proofs.Checking.Typing
import Qalam.Proofs.Checking.Visit
import Qalam.Proofs.Decimal.Basins
import Qalam.Proofs.Decimal.Reading
import Qalam.Proofs.Decimal.Rounding
import Qalam.Proofs.Decimal.Search
import Qalam.Proofs.Descent.Expression
import Qalam.Proofs.Descent.LastToken
import Qalam.Proofs.Descent.Meeting
import Qalam.Proofs.Descent.Routine
import Qalam.Proofs.Descent.Statement
import Qalam.Proofs.Descent.Termination
import Qalam.Proofs.Drawing.Faithful
import Qalam.Proofs.Drawing.Labels
import Qalam.Proofs.Drawing.Lines
import Qalam.Proofs.Drawing.Numbers
import Qalam.Proofs.Drawing.Rows
import Qalam.Proofs.Drawing.Statements
import Qalam.Proofs.Drawing.Strings
import Qalam.Proofs.EcmaScript.Application
import Qalam.Proofs.EcmaScript.ConstantValue
import Qalam.Proofs.EcmaScript.Construction
import Qalam.Proofs.EcmaScript.Emission
import Qalam.Proofs.EcmaScript.Exponentiation
import Qalam.Proofs.EcmaScript.FreeNames
import Qalam.Proofs.EcmaScript.Grammar
import Qalam.Proofs.EcmaScript.Layout
import Qalam.Proofs.EcmaScript.Lexer
import Qalam.Proofs.EcmaScript.Lines
import Qalam.Proofs.EcmaScript.Opening
import Qalam.Proofs.EcmaScript.Preservation
import Qalam.Proofs.EcmaScript.PropertyName
import Qalam.Proofs.EcmaScript.Reach
import Qalam.Proofs.EcmaScript.Reader
import Qalam.Proofs.EcmaScript.Regrouping
import Qalam.Proofs.EcmaScript.Scopes
import Qalam.Proofs.EcmaScript.Spelling
import Qalam.Proofs.EcmaScript.Unambiguous
import Qalam.Proofs.Frames.Agreement
import Qalam.Proofs.Frames.Analyzer
import Qalam.Proofs.Frames.Arena
import Qalam.Proofs.Frames.Balance
import Qalam.Proofs.Grammar.Expression
import Qalam.Proofs.Grammar.ExpressionComplete
import Qalam.Proofs.Grammar.ExpressionSound
import Qalam.Proofs.Grammar.Program
import Qalam.Proofs.Grammar.Reading
import Qalam.Proofs.Grammar.Statement
import Qalam.Proofs.Grammar.StatementComplete
import Qalam.Proofs.Grammar.StatementSound
import Qalam.Proofs.Layout.Compilation
import Qalam.Proofs.Layout.Concatenation
import Qalam.Proofs.Layout.Drawing
import Qalam.Proofs.Layout.Keys
import Qalam.Proofs.Layout.LineBreak
import Qalam.Proofs.Layout.Parsing
import Qalam.Proofs.Layout.Reading
import Qalam.Proofs.Lexing.Blanks
import Qalam.Proofs.Lexing.Digits
import Qalam.Proofs.Lexing.Escapes
import Qalam.Proofs.Lexing.Kinds
import Qalam.Proofs.Lexing.Literals
import Qalam.Proofs.Lexing.Separation
import Qalam.Proofs.Lexing.Spelling
import Qalam.Proofs.Lexing.Word
import Qalam.Proofs.Location.Errors
import Qalam.Proofs.Location.Offsets
import Qalam.Proofs.Location.Reached
import Qalam.Proofs.Naming.Allocation
import Qalam.Proofs.Naming.Members
import Qalam.Proofs.Naming.Proposals
import Qalam.Proofs.Naming.Requests
import Qalam.Proofs.Naming.Sanitize
import Qalam.Proofs.Naming.Selection
import Qalam.Proofs.Naming.Substitution
import Qalam.Proofs.Naming.Table
import Qalam.Proofs.Printing.Brackets
import Qalam.Proofs.Printing.Discipline
import Qalam.Proofs.Printing.Machine
import Qalam.Proofs.Printing.Margins
import Qalam.Proofs.Printing.Shape
import Qalam.Proofs.Relabelling.Binding
import Qalam.Proofs.Relabelling.Checks
import Qalam.Proofs.Relabelling.Context
import Qalam.Proofs.Relabelling.Naming
import Qalam.Proofs.Relabelling.Writing
import Qalam.Proofs.Respelling.Keys
import Qalam.Proofs.Respelling.Naming
import Qalam.Proofs.Respelling.Program
import Qalam.Proofs.Scoping.Event
import Qalam.Proofs.Scoping.Ledger
import Qalam.Proofs.Scoping.Lexical
import Qalam.Proofs.Scoping.Trace
import Qalam.Proofs.Scoping.Walk
import Qalam.Proofs.Structure.Branches
import Qalam.Proofs.Structure.Checked
import Qalam.Proofs.Structure.Formed
import Qalam.Proofs.Structure.Heads
import Qalam.Proofs.Structure.Kept
import Qalam.Proofs.Structure.Nodes
import Qalam.Proofs.Structure.Parts
import Qalam.Proofs.Structure.Relabel
import Qalam.Proofs.Structure.Written
import Qalam.Scope
import Qalam.Tag
import Qalam.Text.Alphabetic
import Qalam.Text.Blank
import Qalam.Text.Combining
import Qalam.Text.Invisible
import Qalam.Text.Quoted
import Qalam.Text.Ranges
import Qalam.Text.Utf8
import Qalam.Timings
import Qalam.Token
import Qalam.Token.Scan
import Qalam.Token.Stream
import Qalam.Toml.Parse
import Qalam.Toml.Scalar
import Qalam.Toml.Value
import Qalam.Tree
import Qalam.Tree.Drawing
import Qalam.Tree.Listing
import Qalam.Tree.Outline
