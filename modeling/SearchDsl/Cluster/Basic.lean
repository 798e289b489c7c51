import SearchDsl.Cluster.Config
import SearchDsl.Query.Response
import SearchDsl.Request.Search

/-!
# `SearchDsl.Cluster.Basic`: talking to a cluster

A cluster joins a configuration with the dialect of its version. It builds the requests for queries
and reads the responses.
-/

set_option autoImplicit false

namespace SearchDsl

/-- A configured cluster and the dialect that it speaks. -/
structure Cluster where
  config : ClusterConfig
  dialect : Dialect

namespace Cluster

/-- The cluster of a configuration, if it is valid and its version supported. -/
def create (config : ClusterConfig) : Except Error Cluster := do
  config.validate
  let version ← config.parsedVersion
  let dialect ← Dialect.ofVersion version
  pure ⟨config, dialect⟩

/-- How long scrolls stay open. -/
def scrollTimeout (cluster : Cluster) : Duration := .ofSeconds cluster.config.scrollTimeout

/-- Asks for `limit` hits from `offset` on, or for the default number of hits. -/
def searchRequest (cluster : Cluster) (query : Query) (offset : UInt64)
    (limit : Option UInt64) : Except Error Request := do
  let body ← query.body cluster.dialect cluster.config offset limit
  Request.search cluster.dialect {
    indexes := query.indexes
    body
    routingKeys := query.routingKeys
    allowPartialResults := some cluster.config.allowPartialResults }

/-- Opens a scroll with `chunk` hits per page. -/
def scrollRequest (cluster : Cluster) (query : Query) (chunk : UInt64) :
    Except Error Request := do
  let body ← query.body cluster.dialect cluster.config 0 (some chunk)
  Request.search cluster.dialect {
    indexes := query.indexes
    body
    routingKeys := query.routingKeys
    scroll := some cluster.scrollTimeout
    allowPartialResults := some cluster.config.allowPartialResults }

/-- Asks for the next page of a scroll. -/
def nextPageRequest (cluster : Cluster) (scrollId : String) : Except Error Request :=
  Request.nextPage scrollId cluster.scrollTimeout

/-- Creates an index. -/
def createIndexRequest (cluster : Cluster) (index : Index) : Request :=
  Request.createIndex cluster.dialect index none

/-- Reads the response to a search or to the request for the next page of a scroll. -/
def readResponse (cluster : Cluster) (query : Query) (response : Json) :
    Except Error ResultPage :=
  query.readResponse cluster.dialect response

end Cluster

end SearchDsl
