import RecordQuery.Main
import RecordQuery.Predicate.Memo
import RecordQuery.Proofs.Folding
import RecordQuery.Proofs.MemoTransparency
import RecordQuery.Proofs.Grammar.Basic
import RecordQuery.Proofs.Grammar.Soundness
import RecordQuery.Proofs.Grammar.Completeness
import RecordQuery.Proofs.Lexing.Progress
import RecordQuery.Proofs.Grammar.Exactness
import RecordQuery.Proofs.Lexing.Steps
import RecordQuery.Proofs.Lexing.Words
import RecordQuery.Proofs.Lexing.Lexed
import RecordQuery.Proofs.Number.Digits
import RecordQuery.Proofs.Literal.Numeral
import RecordQuery.Proofs.Literal.Typing
import RecordQuery.Proofs.Literal.Decimal
import RecordQuery.Proofs.Lexing.Spelling
import RecordQuery.Proofs.Literal.Uuid
import RecordQuery.Proofs.Literal.Quoted
import RecordQuery.Proofs.Literal.Readable
import RecordQuery.Proofs.Literal.Reread
import RecordQuery.Proofs.Literal.ReadBack
import RecordQuery.Proofs.Literal.Written
import RecordQuery.Proofs.Printing.Expressions
import RecordQuery.Proofs.Printing.Predicates
import RecordQuery.Proofs.Printing.Clauses
import RecordQuery.Proofs.Printing.Queries
import RecordQuery.Proofs.Binary64.Bits
import RecordQuery.Proofs.Binary64.Nearest
import RecordQuery.Proofs.Binary64.Shortest
import RecordQuery.Proofs.RoundTrip
import RecordQuery.Proofs.Parameters.Numbering
import RecordQuery.Proofs.Parameters.Substitution
import RecordQuery.Proofs.Parameters.Instances
import RecordQuery.Proofs.Parameters.Supply
import RecordQuery.Proofs.Lexing.Scans
import RecordQuery.Proofs.Lexing.Enclosed
import RecordQuery.Proofs.Composition
import RecordQuery.Proofs.Printing.Assembled
import RecordQuery.Proofs.Results
import RecordQuery.Proofs.Agreement
import RecordQuery.Proofs.Names
import RecordQuery.Proofs.Execution.Rows
import RecordQuery.Proofs.Execution.Qualified
import RecordQuery.Proofs.Execution.InnerJoins
import RecordQuery.Proofs.Execution.OuterJoins
import RecordQuery.Proofs.Execution.Settings
import RecordQuery.Proofs.Execution.Window
import RecordQuery.Proofs.Sorting
import RecordQuery.Proofs.Value.Order
import RecordQuery.Proofs.Execution.Ordering
import RecordQuery.Proofs.Literal.Shown
import RecordQuery.Proofs.EqualExpressions
import RecordQuery.Proofs.Value.Rescaled
import RecordQuery.Proofs.Execution.Rescaled
import RecordQuery.Proofs.Execution.EqualQueries
import RecordQuery.Proofs.Value.Keys
import RecordQuery.Proofs.Execution.Grouping
import RecordQuery.Proofs.Value.Collections
import RecordQuery.Proofs.Value.Symmetry
import RecordQuery.Proofs.Execution.Wildcard
import RecordQuery.Proofs.Lexing.Layout
import RecordQuery.Proofs.Grammar.Places
import RecordQuery.Proofs.Value.Transitivity
import RecordQuery.Proofs.Value.NestedKeys
import RecordQuery.Proofs.Execution.CollectionGroups
import RecordQuery.Proofs.Execution.Extremes
import RecordQuery.Proofs.Printing.Membership
import RecordQuery.Proofs.Printing.Shaped
import RecordQuery.Proofs.Printing.Minimality
import RecordQuery.Pattern.Regex
import RecordQuery.Proofs.Patterns
import RecordQuery.Proofs.StoredPatterns
import RecordQuery.Proofs.FieldComparisons
import RecordQuery.Proofs.QuotedPatterns
import RecordQuery.Proofs.QuotedEquality
import RecordQuery.Proofs.Json.Integers
import RecordQuery.Proofs.Binary64.Whole
import RecordQuery.Proofs.WholeNumbers
import RecordQuery.Proofs.Arithmetic.Whole
import RecordQuery.Proofs.Arithmetic.Sums
import RecordQuery.Proofs.Binary64.Products
import RecordQuery.Proofs.Binary64.Accuracy
import RecordQuery.Proofs.Arithmetic.Widening
import RecordQuery.Proofs.Number.Width
import RecordQuery.Proofs.Literal.Exact
import RecordQuery.Proofs.Literal.Chronology
import RecordQuery.Proofs.Lexing.Positions
import RecordQuery.Proofs.Lexing.Slices
import RecordQuery.Proofs.Grammar.Movement
import RecordQuery.Proofs.TruePositions
import RecordQuery.Proofs.Lexing.Calls
import RecordQuery.Proofs.Literal.Unquoting
import RecordQuery.Proofs.Lexing.Nesting
import RecordQuery.Proofs.Lexing.Parentheses
import RecordQuery.Proofs.Grammar.Fuel
import RecordQuery.Proofs.Grammar.Loops
import RecordQuery.Proofs.Grammar.Calls
