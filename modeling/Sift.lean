import Sift.Catalog
import Sift.Check
import Sift.CommandLine
import Sift.Dict
import Sift.Engine.Registry
import Sift.Engine.Session
import Sift.Engine.Store
import Sift.Engine.World
import Sift.Evaluation.Evaluator
import Sift.Evaluation.Outcome
import Sift.Evaluation.Process
import Sift.Evaluation.Strategy
import Sift.Expr.Basic
import Sift.Expr.Outline
import Sift.Expr.Parse
import Sift.Expr.Parser
import Sift.Grammar.Basic
import Sift.Grammar.Listing
import Sift.Grammar.Standard
import Sift.Grammar.Symbols
import Sift.Json.Basic
import Sift.Json.Reader
import Sift.Json.Writer
import Sift.Main
import Sift.Number.Binary64
import Sift.Number.Decimal
import Sift.Number.Decimals
import Sift.Number.Integer
import Sift.Number.Layout
import Sift.Number.Numeral
import Sift.Number.Powers
import Sift.Number.Rounding
import Sift.Number.Shortest
import Sift.Proofs.Engine.Isolation
import Sift.Proofs.Engine.Keeping
import Sift.Proofs.Engine.Moves
import Sift.Proofs.Engine.Polls
import Sift.Proofs.Engine.Publishing
import Sift.Proofs.Engine.Seeing
import Sift.Proofs.Engine.Sessions
import Sift.Proofs.Evaluation.Congruence
import Sift.Proofs.Evaluation.Failing
import Sift.Proofs.Evaluation.Filtering
import Sift.Proofs.Evaluation.Names
import Sift.Proofs.Evaluation.Polling
import Sift.Proofs.Evaluation.Related
import Sift.Proofs.Evaluation.Waiting
import Sift.Proofs.Expr.Alike
import Sift.Proofs.Expr.Everywhere
import Sift.Proofs.Expr.Grouping
import Sift.Proofs.Expr.Height
import Sift.Proofs.Grammar.Matching
import Sift.Proofs.Json.Conversion
import Sift.Proofs.Number.Bounds
import Sift.Proofs.Number.Conversion
import Sift.Proofs.Number.Division
import Sift.Proofs.Number.Exact
import Sift.Proofs.Number.Floating
import Sift.Proofs.Number.Fractions
import Sift.Proofs.Number.Lawful
import Sift.Proofs.Number.Quotients
import Sift.Proofs.Number.Roundings
import Sift.Proofs.Parse.Alike
import Sift.Proofs.Parse.Chain
import Sift.Proofs.Parse.Counting
import Sift.Proofs.Parse.Marks
import Sift.Proofs.Parse.Nesting
import Sift.Proofs.Parse.Payloads
import Sift.Proofs.Parse.Precedence
import Sift.Proofs.Parse.Reads
import Sift.Proofs.Parse.Siblings
import Sift.Proofs.Parse.Spelling
import Sift.Proofs.Parse.Steps
import Sift.Proofs.Parse.Taking
import Sift.Proofs.Parse.Yields
import Sift.Proofs.Template.Joining
import Sift.Proofs.Template.Splicing
import Sift.Proofs.Token.Adjoining
import Sift.Proofs.Token.Pieces
import Sift.Proofs.Token.Printing
import Sift.Proofs.Token.Progress
import Sift.Proofs.Token.Quoting
import Sift.Proofs.Token.Reading
import Sift.Proofs.Token.Tiling
import Sift.Proofs.Token.Walking
import Sift.Proofs.Value.Comparison
import Sift.Proofs.Value.Indexing
import Sift.Proofs.Value.Mixed
import Sift.Proofs.Value.Operators
import Sift.Proofs.Value.RoundTrip
import Sift.Template
import Sift.Text.Alphabetic
import Sift.Text.CharClass
import Sift.Text.CodeRanges
import Sift.Text.Numeric
import Sift.Text.Quoted
import Sift.Text.Unprintable
import Sift.Text.WhiteSpace
import Sift.Token.Basic
import Sift.Token.Lexer
import Sift.Token.Scan
import Sift.Value.Arithmetic
import Sift.Value.Basic
import Sift.Value.Lookup
import Sift.Value.Order
import Sift.Value.Text
