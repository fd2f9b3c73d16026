import PostfixCalculator.Binary64.Arithmetic
import PostfixCalculator.Binary64.Basic
import PostfixCalculator.Binary64.Nearest
import PostfixCalculator.Binary64.Places
import PostfixCalculator.CommandLine
import PostfixCalculator.Conversion
import PostfixCalculator.Cursor.Basic
import PostfixCalculator.Cursor.Tokens
import PostfixCalculator.Decimal.Basic
import PostfixCalculator.Decimal.Positional
import PostfixCalculator.Decimal.Shortest
import PostfixCalculator.Error
import PostfixCalculator.Expr
import PostfixCalculator.Main
import PostfixCalculator.Numeral
import PostfixCalculator.Operator
import PostfixCalculator.Postfix.Basic
import PostfixCalculator.Postfix.Evaluation
import PostfixCalculator.Proofs.Alternation
import PostfixCalculator.Proofs.Cursor.Bookmark
import PostfixCalculator.Proofs.Cursor.Passing
import PostfixCalculator.Proofs.Cursor.Refinement
import PostfixCalculator.Proofs.Cursor.Tokens
import PostfixCalculator.Proofs.EmptyTokens
import PostfixCalculator.Proofs.Evaluation
import PostfixCalculator.Proofs.Grammar
import PostfixCalculator.Proofs.Legible
import PostfixCalculator.Proofs.Lines
import PostfixCalculator.Proofs.Messages
import PostfixCalculator.Proofs.Minimality
import PostfixCalculator.Proofs.Numeral
import PostfixCalculator.Proofs.NumericTree
import PostfixCalculator.Proofs.OpenGroups
import PostfixCalculator.Proofs.Output
import PostfixCalculator.Proofs.Parentheses
import PostfixCalculator.Proofs.Pending
import PostfixCalculator.Proofs.Pieces
import PostfixCalculator.Proofs.Pipeline
import PostfixCalculator.Proofs.Postorder
import PostfixCalculator.Proofs.Reading
import PostfixCalculator.Proofs.Rendering
import PostfixCalculator.Proofs.Replay
import PostfixCalculator.Proofs.Runs
import PostfixCalculator.Proofs.Strictness
import PostfixCalculator.Proofs.Transcript
import PostfixCalculator.Proofs.Words
import PostfixCalculator.Session
import PostfixCalculator.Settings
import PostfixCalculator.Spacing
import PostfixCalculator.Text.Backspace
import PostfixCalculator.Text.Basic
import PostfixCalculator.Text.Blank
import PostfixCalculator.Text.Cluster.Basic
import PostfixCalculator.Text.Cluster.Table
import PostfixCalculator.Text.CodePoints
import PostfixCalculator.Token
import PostfixCalculator.Proofs.MaximalMunch
import PostfixCalculator.Proofs.LockStep
import PostfixCalculator.Proofs.Faults
import PostfixCalculator.Proofs.Partners
import PostfixCalculator.Proofs.Stack
import PostfixCalculator.Proofs.Refusals
import PostfixCalculator.Proofs.Release
import PostfixCalculator.Proofs.Context
import PostfixCalculator.Proofs.GroupAsOperand
import PostfixCalculator.Proofs.Binary64.Nearest
import PostfixCalculator.Proofs.Binary64.Rounding
import PostfixCalculator.Proofs.Binary64.Arithmetic
import PostfixCalculator.Proofs.Binary64.Rescaling
import PostfixCalculator.Proofs.Binary64.Stability
import PostfixCalculator.Proofs.Decimal.Digits
import PostfixCalculator.Proofs.Decimal.Positional
import PostfixCalculator.Proofs.Decimal.ReadBack
