import SearchDsl.Cluster.Basic
import SearchDsl.Error.Message
import SearchDsl.Proofs.Cluster.Responses
import SearchDsl.Proofs.Field.Codec
import SearchDsl.Proofs.Path.Bytes
import SearchDsl.Proofs.Predicate.Clauses
import SearchDsl.Proofs.Projection.Filter
import SearchDsl.Proofs.Projection.Values
import SearchDsl.Proofs.Query.Distances
import SearchDsl.Proofs.Query.Merging
import SearchDsl.Proofs.Query.Nulls
import SearchDsl.Proofs.Query.Window
import SearchDsl.Proofs.Request.Duration
import SearchDsl.Proofs.Request.Routing
import SearchDsl.Proofs.Schema.Inventory
import SearchDsl.Proofs.Schema.NormalForm
import SearchDsl.Proofs.Scope.Capabilities
import SearchDsl.Proofs.Scope.Matching
import SearchDsl.Proofs.Scope.Redundancy
import SearchDsl.Proofs.Scope.Views
import SearchDsl.Proofs.TopDocs.Numbers
import SearchDsl.Proofs.Version.Grammar
import SearchDsl.Proofs.Version.Releases

/-!
# `SearchDsl`: building searches against several indexes, and reading their results

Fields are declared in definitions, which make an index with its mapping. A scope of indexes
resolves paths and makes predicates, sorts and projections, and a query joins these. A cluster turns
queries into requests in the dialect of its version and reads the responses, whose pages are merged
by their ranking.

The modules under `SearchDsl.Proofs` hold the theory, each named like the part that it is about.
-/
