import SearchDsl.Cluster.Config
import SearchDsl.Predicate.Nesting
import SearchDsl.Projection
import SearchDsl.SortCriterion

/-!
# `SearchDsl.Query.Basic`: search queries

A query gathers what is built against one scope: the predicate that hits match, the sort criteria,
the projections and the routing keys. The body of a search request joins them with a window of
hits, which the configuration bounds.
-/

set_option autoImplicit false

namespace SearchDsl

/-- A search query. -/
structure Query where
  /-- The names of the indexes. -/
  indexes : List String
  predicate : Predicate
  sorts : List SortCriterion
  projections : List Projection
  routingKeys : List String

namespace Query

/-- A query against a scope. Without a predicate all documents match, and without projections the
references of the documents are returned. -/
def create (scope : Scope) (predicate : Option Predicate) (sorts : List SortCriterion)
    (projections : List Projection) (routingKeys : List String) : Except Error Query := do
  let predicate := predicate.getD (.matchAll none)
  predicate.checkWithin none
  pure {
    indexes := scope.indexNames
    predicate
    sorts
    projections := if projections = [] then [.reference] else projections
    routingKeys }

/-- The query clause. -/
def clause (query : Query) : Except Error Json := query.predicate.build none

/-- How the hits of the query rank, by descending score if it is not sorted. -/
def rankingKeys (query : Query) : List RankingKey :=
  if query.sorts.isEmpty then [.score false] else query.sorts.map SortCriterion.rankingKey

/-- The sum of two 64-bit numbers, as far as it can be represented. -/
def window (offset limit : UInt64) : Nat := min (offset.toNat + limit.toNat) (UInt64.size - 1)

/-- Whether scores have to be asked for: they are projected, but the hits are sorted by something
else, in which case no scores are computed otherwise. -/
def tracksScores (query : Query) : Bool :=
  !query.sorts.isEmpty && !query.sorts.all SortCriterion.isScore
    && query.projections.any Projection.isScore

/-- The body that asks for `limit` hits from `offset` on, or for the default number of hits. -/
def body (query : Query) (dialect : Dialect) (config : ClusterConfig) (offset : UInt64)
    (limit : Option UInt64) : Except Error Json := do
  let limit := limit.getD config.defaultLimit
  let window := window offset limit
  if config.maxResultWindow.toNat < window then
    throw (.argument (.windowExceeded window config.maxResultWindow.toNat))
  let clause ← query.clause
  let sorts :=
    if query.sorts.isEmpty then none else some (.array (query.sorts.map fun s => s.toJson dialect))
  let trackTotalHits :=
    if dialect.tracksTotalHits then some (.bool config.trackTotalHits) else none
  pure <| .object <|
    Json.member? "_source" (Projection.sourceFilter query.projections)
    ++ [("from", .int offset.toNat), ("query", clause), ("size", .int limit.toNat)]
    ++ Json.member? "sort" sorts
    ++ Json.member? "track_scores" (if query.tracksScores then some (.bool true) else none)
    ++ Json.member? "track_total_hits" trackTotalHits

end Query

end SearchDsl
