import SearchDsl.Json.Source
import SearchDsl.Version.Parser

/-!
# `SearchDsl.Cluster.Config`: the configuration of a cluster

A configuration is read from JSON, where every setting has a default, and validated afterwards.
-/

set_option autoImplicit false

namespace SearchDsl

/-- The settings for one cluster. -/
structure ClusterConfig where
  /-- The version of Elasticsearch, the latest supported one if it is not given. -/
  version : Option String := none
  /-- The number of hits of a search that does not limit them. -/
  defaultLimit : UInt64 := 10
  /-- How many seconds a scroll stays open between its pages. -/
  scrollTimeout : UInt64 := 60
  /-- Whether exact hit counts are asked for. -/
  trackTotalHits : Bool := true
  /-- Whether results of some shards will do. -/
  allowPartialResults : Bool := false
  /-- The greatest sum of offset and limit. -/
  maxResultWindow : UInt64 := 10000
deriving DecidableEq, Repr

namespace ClusterConfig

/-- The names of the settings. -/
def names : List String :=
  ["version", "default_limit", "scroll_timeout_secs", "track_total_hits",
    "allow_partial_search_results", "max_result_window"]

/-- Writes a configuration. -/
def toJson (config : ClusterConfig) : Json :=
  .object [
    ("allow_partial_search_results", .bool config.allowPartialResults),
    ("default_limit", .int config.defaultLimit.toNat),
    ("max_result_window", .int config.maxResultWindow.toNat),
    ("scroll_timeout_secs", .int config.scrollTimeout.toNat),
    ("track_total_hits", .bool config.trackTotalHits),
    ("version", (config.version.map .string).getD .null)]

/-- Reads a configuration from an object or from an array of its first settings. -/
def ofJson? (json : Json) : Option ClusterConfig :=
  match json.fields? names 0 with
  | some [version, limit, timeout, track, partialResults, window] => do
      let version ← Json.optional Json.asString? version
      let limit ← Json.defaulting 10 Json.asUnsigned? limit
      let timeout ← Json.defaulting 60 Json.asUnsigned? timeout
      let track ← Json.defaulting true Json.asBool? track
      let partialResults ← Json.defaulting false Json.asBool? partialResults
      let window ← Json.defaulting 10000 Json.asUnsigned? window
      pure ⟨version, limit, timeout, track, partialResults, window⟩
  | _ => none

/-- The members of an object that are settings, unless one is given twice. The values of all other
members can be anything. -/
def settings? : List (List Json.StringUnit × Json.Source) → Option (List (String × Json))
  | [] => some []
  | (units, source) :: rest => do
      let name ← Json.Source.text? units
      let settings ← settings? rest
      if name ∈ names then
        let value ← source.json?
        if (Json.find? name settings).isSome then none else pure (Json.put name value settings)
      else pure settings

/-- Reads a configuration from the tree of a JSON text. -/
def ofSource? : Json.Source → Option ClusterConfig
  | .object members => (settings? members).bind fun settings => ofJson? (.object settings)
  | .array items => (Json.Source.jsonItems? items).bind fun items => ofJson? (.array items)
  | _ => none

/-- The configured version. -/
def parsedVersion (config : ClusterConfig) : Except Error (Option Version) :=
  match config.version with
  | none => .ok none
  | some text => (Version.parse text).map some

/-- Checks that the settings are consistent and in range. -/
def validate (config : ClusterConfig) : Except Error Unit := do
  if config.defaultLimit = 0 then throw (.configuration .zeroLimit)
  if config.scrollTimeout = 0 then throw (.configuration .zeroScrollTimeout)
  if config.maxResultWindow < config.defaultLimit then
    throw (.configuration (.limitExceedsWindow config.defaultLimit config.maxResultWindow))
  let _ ← config.parsedVersion

/-- A configuration that has passed its checks. -/
def validated (config : ClusterConfig) : Except Error ClusterConfig := do
  config.validate
  pure config

/-- Reads and validates a configuration. -/
def parse (text : String) : Except Error ClusterConfig :=
  match (Json.Source.parse? text).bind ofSource? with
  | some config => config.validated
  | none => .error .malformed

end ClusterConfig

end SearchDsl
