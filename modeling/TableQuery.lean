import TableQuery.DataType.Json
import TableQuery.Relation.Explain
import TableQuery.Session.Session
import TableQuery.Proofs.Join.NestedLoop
import TableQuery.Proofs.Expr.Soundness
import TableQuery.Proofs.Join.Equality
import TableQuery.Proofs.Batch.Nulls
import TableQuery.Proofs.Expr.Nullability
import TableQuery.Proofs.Expr.Placement
import TableQuery.Proofs.Join.NullFill
import TableQuery.Proofs.Join.Predicate
import TableQuery.Proofs.Store.Invariant
import TableQuery.Proofs.Aggregation.Groups
import TableQuery.Proofs.Expr.Windows
import TableQuery.Proofs.Join.Planned
import TableQuery.Proofs.Operator.Lowering
import TableQuery.Proofs.Operator.Projection
import TableQuery.Proofs.Scalar.Order
import TableQuery.Proofs.Window.Values
import TableQuery.Proofs.Session.Conforms
import TableQuery.Proofs.Session.Ingest
import TableQuery.Proofs.Session.Layout
import TableQuery.Proofs.Sql.Ordering
import TableQuery.Proofs.Session.Count
import TableQuery.Proofs.Sql.Folding
import TableQuery.Proofs.Session.FullJoin
import TableQuery.Proofs.Session.Sharing
import TableQuery.Proofs.Sql.Lexing
import TableQuery.Proofs.Sql.Literals
import TableQuery.Proofs.Sql.Pieces
import TableQuery.Proofs.Sql.WellFormed
import TableQuery.Proofs.Sql.Quoting
import TableQuery.Proofs.Join.Mirror
import TableQuery.Proofs.Sql.TypeNames
import TableQuery.Proofs.Sql.Selecting
import TableQuery.Proofs.Store.Answering
import TableQuery.Proofs.DataType.RoundTrip
import TableQuery.Proofs.Join.Outputs
import TableQuery.Proofs.Join.Residual
import TableQuery.Proofs.Operator.Sorting
import TableQuery.Proofs.Number.Monotone
import TableQuery.Proofs.Scalar.Exact
import TableQuery.Proofs.Scalar.Total
import TableQuery.Proofs.Operator.ExactKeys
import TableQuery.Proofs.Arithmetic.Decimals
import TableQuery.Proofs.Arithmetic.Intervals
import TableQuery.Proofs.Arithmetic.Shifts
import TableQuery.Proofs.Aggregation.Sums
import TableQuery.Proofs.Expr.Connectives
import TableQuery.Proofs.Source
import TableQuery.Proofs.Aggregation.Extremes
import TableQuery.Proofs.Aggregation.Results
import TableQuery.Proofs.Aggregation.Frequencies
import TableQuery.Proofs.Session.Distinct
import TableQuery.Proofs.Session.Frequent
import TableQuery.Proofs.Session.Insert
import TableQuery.Proofs.Session.Mutate
import TableQuery.Proofs.Sql.Positions
import TableQuery.Proofs.Source.Categories
import TableQuery.Proofs.Batch.Columnar
import TableQuery.Proofs.Operator.Columnar
import TableQuery.Proofs.Expr.Traversal
import TableQuery.Proofs.Number.DecimalText
import TableQuery.Proofs.Schema.Equality
