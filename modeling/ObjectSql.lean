import ObjectSql.Expr.Json
import ObjectSql.Expr.Method
import ObjectSql.Expr.Render
import ObjectSql.Fetch.Cache
import ObjectSql.Fetch.Execute
import ObjectSql.Fetch.Json
import ObjectSql.Main
import ObjectSql.Metadata.Json
import ObjectSql.SqlType.Json
import ObjectSql.Proofs.Expr.Arithmetic
import ObjectSql.Proofs.Expr.Pattern
import ObjectSql.Proofs.Fetch.Execute
import ObjectSql.Proofs.Statement.Placeholders
import ObjectSql.Proofs.Statement.Parameters
import ObjectSql.Proofs.Fetch.Steps
import ObjectSql.Proofs.Fetch.Plan
import ObjectSql.Proofs.Statement.Restriction
import ObjectSql.Proofs.Fetch.Binding
import ObjectSql.Proofs.Fetch.Calls
import ObjectSql.Proofs.Fetch.Result
import ObjectSql.Proofs.Fetch.Tenancy
import ObjectSql.Proofs.Fetch.Locking
import ObjectSql.Proofs.Schema.Key
import ObjectSql.Proofs.SqlType.Relearning
import ObjectSql.Proofs.SqlType.ReverseLookup
import ObjectSql.Proofs.SqlType.Parameters
import ObjectSql.Proofs.Fetch.Scoping
import ObjectSql.Proofs.Fetch.Cache
import ObjectSql.Proofs.Fetch.SharedCache
import ObjectSql.Proofs.Schema.References
import ObjectSql.Proofs.Value.Escape
import ObjectSql.Proofs.Dialect.Hash
import ObjectSql.Proofs.Schema.Naming
import ObjectSql.Proofs.Schema.PrimaryKey
import ObjectSql.Proofs.Dialect.FunctionCall
import ObjectSql.Proofs.Metadata.Lineage
import ObjectSql.Proofs.Fetch.Identification
import ObjectSql.Proofs.Fetch.Relation
import ObjectSql.Proofs.Expr.Comparison
import ObjectSql.Proofs.Expr.Negation
import ObjectSql.Proofs.Expr.Source
import ObjectSql.Proofs.Statement.Ordering
import ObjectSql.Proofs.Dialect.Version
import ObjectSql.Proofs.Dialect.Sequence
import ObjectSql.Proofs.Schema.ColumnLists
import ObjectSql.Proofs.Statement.Building
import ObjectSql.Proofs.Statement.Occurrences
import ObjectSql.Proofs.Statement.Projection
import ObjectSql.Proofs.Expr.Slots
