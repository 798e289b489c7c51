import SearchDsl.Dialect
import SearchDsl.Request.Basic
import SearchDsl.Request.Duration
import SearchDsl.Schema.Index
import SearchDsl.Text.Sorted

/-!
# `SearchDsl.Request.Search`: the requests around a search

These are the search itself, the pages of a scroll, the release of a scroll and the creation of an
index.
-/

set_option autoImplicit false

namespace SearchDsl

/-- What a search request is made from. -/
structure SearchCall where
  indexes : List String
  body : Json
  /-- Keys that select the shards to search, in any order. -/
  routingKeys : List String := []
  /-- How long a scroll is kept open, if one is opened. -/
  scroll : Option Duration := none
  /-- Whether results of some shards will do, if that is said at all. -/
  allowPartialResults : Option Bool := none

/-- Adds routing keys to those that the call has. -/
def SearchCall.addRoutingKeys (call : SearchCall) (keys : List String) : SearchCall :=
  { call with routingKeys := call.routingKeys ++ keys }

namespace Request

/-- A parameter that is left out when it has no value. -/
def param? (name : String) (value : Option String) : List (String × String) :=
  (value.map (name, ·)).toList

/-- The search request for a call. Whether partial results are allowed is only said to releases that
understand it. -/
def search (dialect : Dialect) (call : SearchCall) : Except Error Request :=
  if call.indexes = [] then .error (.argument .noTargetIndex)
  else
    let routing :=
      if call.routingKeys = [] then none
      else some (",".intercalate (Text.sortedDistinct call.routingKeys))
    let allowPartial :=
      if dialect.allowsPartialResults then
        call.allowPartialResults.map fun allow => if allow then "true" else "false"
      else none
    .ok {
      method := .post
      path := "/" ++ ",".intercalate call.indexes ++ "/_search"
      params :=
        param? "allow_partial_search_results" allowPartial
        ++ param? "routing" routing
        ++ param? "scroll" (call.scroll.map Duration.text)
      body := some call.body }

/-- Asks for the next page of a scroll. -/
def nextPage (scrollId : String) (timeout : Duration) : Except Error Request :=
  if scrollId = "" then .error (.argument .emptyScrollId)
  else .ok {
    method := .post
    path := "/_search/scroll"
    body := some (.object [("scroll", .string timeout.text), ("scroll_id", .string scrollId)]) }

/-- Releases a scroll. -/
def clearScroll (scrollId : String) : Except Error Request :=
  if scrollId = "" then .error (.argument .emptyScrollId)
  else .ok {
    method := .delete
    path := "/_search/scroll"
    body := some (.single "scroll_id" (.strings [scrollId])) }

/-- Creates an index with its mapping and optional settings. -/
def createIndex (dialect : Dialect) (index : Index)
    (settings : Option (List (String × Json))) : Request where
  method := .put
  path := "/" ++ index.name
  body := some <| .object <|
    dialect.wrapMapping index.mapping ++ Json.member? "settings" (settings.map .object)

end Request

end SearchDsl
