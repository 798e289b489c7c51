import SearchDsl.Error.Basic

/-!
# `SearchDsl.Dialect`: the protocol of a range of releases

The formats of requests and responses differ between releases of Elasticsearch in five points:
whether partial results can be allowed, whether exact hit counts have to be asked for, the form of
the total hit count, the nested option of sorts, and the mapping type.
-/

set_option autoImplicit false

namespace SearchDsl

/-- The protocols that are told apart, each named for the first release that speaks it. -/
inductive Dialect where
  | v56
  | v60
  | v63
  | v7
deriving DecidableEq, Repr

namespace Dialect

/-- The name of a dialect. -/
def name : Dialect → String
  | v56 => "Elasticsearch 5.6"
  | v60 => "Elasticsearch 6.0"
  | v63 => "Elasticsearch 6.3"
  | v7 => "Elasticsearch 7"

/-- Whether search requests can say if partial results are allowed. -/
def allowsPartialResults : Dialect → Bool
  | v56 | v60 => false
  | v63 | v7 => true

/-- Whether an exact hit count has to be asked for. -/
def tracksTotalHits : Dialect → Bool
  | v7 => true
  | _ => false

/-- The name of the only mapping type, for releases that have mapping types. -/
def mappingType? : Dialect → Option String
  | v7 => none
  | _ => some "doc"

/-- A chain of nested options, outermost first. -/
def nestedChain : List String → Option Json
  | [] => none
  | path :: inner =>
      some (.object (Json.member? "nested" (nestedChain inner) ++ [("path", .string path)]))

/-- The member that a sort on a field in a nesting hierarchy needs. The oldest dialect names the
innermost nested object only. -/
def nestedSort (dialect : Dialect) (hierarchy : List String) : List (String × Json) :=
  match dialect with
  | v56 => Json.member? "nested_path" (hierarchy.getLast?.map .string)
  | _ => Json.member? "nested" (nestedChain hierarchy)

/-- The total hit count in the hits object of a response. -/
def totalHits (dialect : Dialect) (hits : Json) : Except Error Nat :=
  match dialect with
  | v7 =>
      match hits.get? "total" with
      | none => .error (.response .missingTotal)
      | some total =>
          match (total.get? "value").bind Json.asUnsigned? with
          | some count => .ok count.toNat
          | none => .error (.response .invalidTotalValue)
  | _ =>
      match (hits.get? "total").bind Json.asUnsigned? with
      | some count => .ok count.toNat
      | none => .error (.response .invalidTotal)

/-- A mapping as it is given when an index is created. -/
def wrapMapping (dialect : Dialect) (mapping : Json) : List (String × Json) :=
  match dialect.mappingType? with
  | some type => [("mappings", .single type mapping)]
  | none => [("mappings", mapping)]

/-- The dialect of a release. Without a version it is the latest one, which also serves later
releases. A version without a minor number gets the dialect of the last minor release. -/
def ofVersion : Option Version → Except Error Dialect
  | none => .ok v7
  | some version =>
      if version.major = 5 ∧ (version.minor = none ∨ version.minor = some 6) then .ok v56
      else if version.major = 6 then
        match version.minor with
        | none => .ok v63
        | some minor =>
            if minor ≤ 2 then .ok v60
            else if minor ≤ 8 then .ok v63
            else .error (.unsupportedVersion version)
      else if 7 ≤ version.major then .ok v7
      else .error (.unsupportedVersion version)

end Dialect

end SearchDsl
