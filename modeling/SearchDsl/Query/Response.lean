import SearchDsl.Query.Basic
import SearchDsl.TopDocs.Merge

/-!
# `SearchDsl.Query.Response`: reading the responses to a search

A response to a search or to the request for the next page of a scroll is one page of hits. Pages
can be turned into top hits for merging.
-/

set_option autoImplicit false

namespace SearchDsl

/-- A hit of a search. -/
structure SearchHit where
  index : String
  id : String
  score : Option Single
  sortValues : List SortValue
  /-- One value per projection of the query, in order. -/
  projections : List Projected

/-- A page of search results. -/
structure ResultPage where
  total : Nat
  tookMs : Nat
  timedOut : Bool
  /-- The scroll that was opened or continued, if there is one. -/
  scrollId : Option String
  hits : List SearchHit

namespace Query

/-- The sort values of a hit. -/
def sortValuesOf (hit : Json) : List SortValue :=
  (((hit.get? "sort").bind Json.asArray?).getD []).map SortValue.ofJson

/-- Reads one hit. -/
def readHit (query : Query) (hit : Json) : Except Error SearchHit := do
  let projections ← query.projections.mapM (Projection.extract hit)
  let index ← Projection.textOfHit hit "_index"
  let id ← Projection.textOfHit hit "_id"
  pure {
    index
    id
    score := Projection.scoreOfHit? hit
    sortValues := sortValuesOf hit
    projections }

/-- Reads a response. -/
def readResponse (query : Query) (dialect : Dialect) (response : Json) :
    Except Error ResultPage := do
  let hitsObject ← match response.get? "hits" with
    | some hits => pure hits
    | none => throw (.response .missingHits)
  let total ← dialect.totalHits hitsObject
  let rawHits ← match (hitsObject.get? "hits").bind Json.asArray? with
    | some hits => pure hits
    | none => throw (.response .invalidHits)
  let hits ← rawHits.mapM query.readHit
  pure {
    total
    tookMs := (((response.get? "took").bind Json.asUnsigned?).map UInt64.toNat).getD 0
    timedOut := ((response.get? "timed_out").bind Json.asBool?).getD false
    scrollId := (response.get? "_scroll_id").bind Json.asString?
    hits }

end Query

namespace ResultPage

/-- A hit with its position in the page. A hit without a score gets NaN. -/
def rankedHit (readsValues : Bool) (hit : SearchHit) (position : Nat) : Hit where
  doc := position
  score := hit.score.getD (.nan .binary32 false)
  values := if readsValues then hit.sortValues else []

/-- The hits of a page as top hits for merging by the given criteria. The sort values are kept if
one of the criteria reads them. -/
def toTopDocs (keys : List RankingKey) (page : ResultPage) : TopDocs where
  total := page.total
  hits := page.hits.mapIdx fun position hit =>
    rankedHit (keys.any RankingKey.readsValues) hit position

end ResultPage

end SearchDsl
