import TypedSql.Connection.Certificate
import TypedSql.Connection.File
import TypedSql.Proofs.Catalog.Memory
import TypedSql.Proofs.Catalog.Sessions
import TypedSql.Proofs.Catalog.Tree
import TypedSql.Proofs.Conversion.Canonical
import TypedSql.Proofs.Conversion.Dimensions
import TypedSql.Proofs.Protocol.RoundTrip
import TypedSql.Proofs.Server.Fields
import TypedSql.Proofs.Sql.Conflicts
import TypedSql.Proofs.Sql.FreeMarks
import TypedSql.Proofs.Sql.Meaning
import TypedSql.Proofs.Sql.Numbering
import TypedSql.Proofs.Sql.References
import TypedSql.Proofs.Sql.Values
import TypedSql.Proofs.Value.Literals
import TypedSql.Server.Describe
import TypedSql.Server.Exchange
import TypedSql.Server.Introspection
import TypedSql.Proofs.Conversion.Nulls
import TypedSql.Proofs.Conversion.Bounds
import TypedSql.Proofs.Conversion.Records
import TypedSql.Proofs.Server.Nullability
import TypedSql.Proofs.Sql.OpenTables
import TypedSql.Proofs.Sql.Tuples
import TypedSql.Proofs.Sql.Aftermath
import TypedSql.Proofs.Catalog.Effort
import TypedSql.Proofs.Sql.Names
import TypedSql.Proofs.Sql.Positions
import TypedSql.Proofs.Sql.Sorting
import TypedSql.Proofs.Catalog.ArrayTypes
import TypedSql.Proofs.Protocol.Nesting
import TypedSql.Proofs.Protocol.Excess
import TypedSql.Proofs.Protocol.Malformed
import TypedSql.Proofs.Protocol.Integers
import TypedSql.Proofs.Server.Locations
import TypedSql.Proofs.Connection.Keywords
import TypedSql.Proofs.Connection.Bundles
import TypedSql.Proofs.Text.Lines
import TypedSql.Proofs.Protocol.Intervals
import TypedSql.Proofs.Sql.Spelling
