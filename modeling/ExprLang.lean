import ExprLang.Expr.Equality
import ExprLang.Expr.Rendering
import ExprLang.Folding
import ExprLang.Number.Bits
import ExprLang.Record
import ExprLang.Text.Listed
import ExprLang.Value.Data
import ExprLang.Proofs.Outcome
import ExprLang.Proofs.Expr.Children
import ExprLang.Proofs.Grouping.Turning
import ExprLang.Proofs.Grouping.SourceOrder
import ExprLang.Proofs.Grouping.Settled
import ExprLang.Proofs.Evaluation.Composition
import ExprLang.Proofs.Folding.Meaning
import ExprLang.Proofs.Grouping.Chain
import ExprLang.Proofs.Expr.Landmarks
import ExprLang.Proofs.Expr.Replacement
import ExprLang.Proofs.Evaluation.Success
import ExprLang.Proofs.Folding.Maximal
import ExprLang.Proofs.Folding.NormalForm
import ExprLang.Proofs.Number.Order
import ExprLang.Proofs.Value.Order
import ExprLang.Proofs.Entries.Merging
import ExprLang.Proofs.Value.Regrouping
import ExprLang.Proofs.Text.ByteOrder
import ExprLang.Proofs.Value.Comparison
import ExprLang.Proofs.Evaluation.Sites
import ExprLang.Proofs.Evaluation.FreshFault
import ExprLang.Proofs.Evaluation.Provenance
import ExprLang.Proofs.Evaluation.RangeLimit
import ExprLang.Proofs.Environment.Nesting
import ExprLang.Proofs.Value.Indexing
import ExprLang.Proofs.Evaluation.Dependence
import ExprLang.Proofs.Value.Rendering
import ExprLang.Proofs.Value.MapParts
import ExprLang.Proofs.Expr.Names
import ExprLang.Proofs.Entries.Mapping
import ExprLang.Proofs.Number.Nearest
import ExprLang.Proofs.Value.DataForm
import ExprLang.Proofs.Value.Bare
import ExprLang.Proofs.Expr.Bare
import ExprLang.Proofs.Evaluation.Positions
import ExprLang.Proofs.Grouping.Parentheses
import ExprLang.Proofs.Evaluation.Inlining
import ExprLang.Proofs.Number.Integers
import ExprLang.Proofs.Value.Elements
import ExprLang.Proofs.Value.Gathering
import ExprLang.Proofs.Evaluation.OpenRanges
import ExprLang.Proofs.Value.RangeForm
import ExprLang.Proofs.Number.Rounding
import ExprLang.Proofs.Decimal.Digits
import ExprLang.Proofs.Decimal.Shortest
import ExprLang.Proofs.Text.Delimited
import ExprLang.Proofs.Decimal.Numeral
import ExprLang.Proofs.Decimal.PlainNotation
import ExprLang.Proofs.Value.NumberText
import ExprLang.Proofs.Value.Unambiguous
import ExprLang.Proofs.Text.Lines
import ExprLang.Proofs.Value.BlockText
import ExprLang.Proofs.Environment.Histories
import ExprLang.Proofs.Offers
import ExprLang.Proofs.Grouping.Termination
import ExprLang.Proofs.Value.Runs
import ExprLang.Proofs.Evaluation.Ranges
import ExprLang.Proofs.Value.Joining
