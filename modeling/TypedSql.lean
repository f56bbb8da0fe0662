import TypedSql.Batch
import TypedSql.Syntax.Build
import TypedSql.Proofs.Noninterference
import TypedSql.Proofs.Composition
import TypedSql.Proofs.Mode
import TypedSql.Proofs.Quoting
import TypedSql.Proofs.Payload
import TypedSql.Proofs.Termination
import TypedSql.Proofs.Limit
import TypedSql.Proofs.Clause.Query
import TypedSql.Proofs.Legible.Privilege
import TypedSql.Proofs.Legible.Table
import TypedSql.Proofs.Legible.Expr
import TypedSql.Proofs.Transparent
import TypedSql.Proofs.Reach
import TypedSql.Proofs.Balance
import TypedSql.Proofs.Equality.Statement
import TypedSql.Proofs.Batch
import TypedSql.Proofs.Escaping
import TypedSql.Proofs.Comment.Query
import TypedSql.Proofs.Json.RoundTrip
import TypedSql.Proofs.Name.Reading
import TypedSql.Proofs.Journal
