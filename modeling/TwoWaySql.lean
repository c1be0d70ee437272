import TwoWaySql.Text.Numeric
import TwoWaySql.Text.Blank
import TwoWaySql.Text.Casing
import TwoWaySql.Number.Shortest
import TwoWaySql.Number.Decimal
import TwoWaySql.Location
import TwoWaySql.Value.Bindable
import TwoWaySql.Value.Order
import TwoWaySql.Value.Text
import TwoWaySql.Scope
import TwoWaySql.Text.Like
import TwoWaySql.Expr.Parser
import TwoWaySql.Expr.Builtin
import TwoWaySql.Expr.Eval
import TwoWaySql.Json.Reader
import TwoWaySql.Json.Printer
import TwoWaySql.Json.Value
import TwoWaySql.Literal
import TwoWaySql.Template.Parser
import TwoWaySql.Template.Renderer
import TwoWaySql.Main
import TwoWaySql.Proofs.Outcome
import TwoWaySql.Proofs.Parts
import TwoWaySql.Proofs.Alignment
import TwoWaySql.Proofs.Lexing
import TwoWaySql.Proofs.Tokens
import TwoWaySql.Proofs.Canonical
import TwoWaySql.Proofs.Parsing
import TwoWaySql.Proofs.TreeText
import TwoWaySql.Proofs.RoundTrip
import TwoWaySql.Proofs.Elision
import TwoWaySql.Proofs.Connectors
import TwoWaySql.Proofs.NestedClauses
import TwoWaySql.Proofs.Scoping
import TwoWaySql.Proofs.FreeNames
import TwoWaySql.Proofs.UnboundNames
import TwoWaySql.Proofs.Decisions
import TwoWaySql.Proofs.Unrolling
import TwoWaySql.Proofs.Brackets
import TwoWaySql.Proofs.Subtrees
import TwoWaySql.Proofs.OptionalPredicates
import TwoWaySql.Proofs.OptionalParsing
import TwoWaySql.Proofs.OptionalClause
import TwoWaySql.Proofs.Grammar
import TwoWaySql.Proofs.Acceptance
import TwoWaySql.Proofs.Expr.Acceptance
import TwoWaySql.Proofs.Recency
import TwoWaySql.Proofs.NestingLimit
import TwoWaySql.Proofs.Caching
import TwoWaySql.Proofs.PlainTemplates
import TwoWaySql.Proofs.Shape
import TwoWaySql.Proofs.Nesting
import TwoWaySql.Proofs.Operands
import TwoWaySql.Proofs.Expr.Depth
import TwoWaySql.Proofs.Expr.TokenOrder
import TwoWaySql.Proofs.Expr.Printing
import TwoWaySql.Proofs.Expr.Arguments
import TwoWaySql.Proofs.Directives
import TwoWaySql.Proofs.Diagnostics
import TwoWaySql.Proofs.InlinedLiterals
import TwoWaySql.Proofs.LikePatterns
import TwoWaySql.Proofs.Collections
import TwoWaySql.Proofs.Expr.Leaves
import TwoWaySql.Proofs.Expr.Blanks
import TwoWaySql.Proofs.Keywords
import TwoWaySql.Proofs.Delimiter
import TwoWaySql.Proofs.Expr.Comparisons
import TwoWaySql.Proofs.Suppression
import TwoWaySql.Proofs.LoopNames
import TwoWaySql.Proofs.JsonValues
import TwoWaySql.Proofs.Expr.InStep
import TwoWaySql.Proofs.LoopBodies
import TwoWaySql.Proofs.Positions
