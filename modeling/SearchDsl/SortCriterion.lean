import SearchDsl.Dialect
import SearchDsl.Field.Codec
import SearchDsl.Scope
import SearchDsl.TopDocs.SortValue

/-!
# `SearchDsl.SortCriterion`: sort criteria

A search lists its sort criteria. Each renders to JSON, in a form that depends on the dialect for
fields in nested objects, and each says how the sort values that it produces compare, so that the
results of several searches can be merged. Sorts on fields are made through a scope, which checks
that the field can be sorted by.
-/

set_option autoImplicit false

namespace SearchDsl

/-- A sort direction. -/
inductive SortDirection where
  | ascending
  | descending
deriving DecidableEq, Repr

/-- Where documents without a value for the sort field go. -/
inductive MissingPlacement where
  | first
  | last
  /-- They are sorted as if they had this value. -/
  | standIn (value : Json)

/-- A sort on the value of a field. -/
structure FieldSort where
  path : String
  kind : FieldKind
  hierarchy : List String
  direction : SortDirection := .ascending
  missing : MissingPlacement := .last

/-- A sort on the distance of a geo point field from a center. -/
structure DistanceSort where
  path : String
  center : GeoPoint
  hierarchy : List String
  direction : SortDirection := .ascending

/-- A sort criterion. -/
inductive SortCriterion where
  | score (direction : SortDirection)
  | field (sort : FieldSort)
  | distance (sort : DistanceSort)
  /-- The internal order of the index, which is the cheapest. -/
  | indexOrder

namespace SortDirection

/-- The name of a direction in a search body. -/
def name : SortDirection → String
  | ascending => "asc"
  | descending => "desc"

end SortDirection

namespace MissingPlacement

/-- The option for documents without a value in a search body. -/
def toJson : MissingPlacement → Json
  | first => .string "_first"
  | last => .string "_last"
  | standIn value => value

end MissingPlacement

namespace FieldSort

/-- Sorts documents without a value as if they had the given one. -/
def missingAs (sort : FieldSort) (value : FieldValue) : Except Error FieldSort := do
  let value ← sort.kind.encode sort.path value
  pure { sort with missing := .standIn value }

end FieldSort

namespace SortCriterion

/-- Renders a criterion. -/
def toJson (dialect : Dialect) : SortCriterion → Json
  | score direction => .single "_score" (.single "order" (.string direction.name))
  | indexOrder => .string "_doc"
  | field sort =>
      .single sort.path <| .object <|
        [("missing", sort.missing.toJson)]
        ++ dialect.nestedSort sort.hierarchy
        ++ [("order", .string sort.direction.name)]
  | distance sort =>
      .single "_geo_distance" <| .object <| Json.collect <|
        [(sort.path, sort.center.toJson), ("order", .string sort.direction.name),
          ("unit", .string "m")]
        ++ dialect.nestedSort sort.hierarchy

/-- How the sort values of a criterion compare. -/
def rankingKey : SortCriterion → RankingKey
  | score direction => .score (direction == .ascending)
  | indexOrder => .doc
  | field sort =>
      let missingLast := match sort.missing with
        | .first => false
        | _ => true
      .field (sort.direction == .descending) missingLast
  | distance sort => .field (sort.direction == .descending) true

/-- Whether hits are sorted by score. -/
def isScore : SortCriterion → Bool
  | score _ => true
  | _ => false

end SortCriterion

/-- Checks that there can be sorts on the field. -/
def ValueField.checkSortable (field : ValueField) : Except Error Unit :=
  if field.type.sortable then .ok () else .error (.argument (.notSortable field.path))

namespace Scope

/-- A sort on a field, ascending, with documents without a value last. -/
def fieldSort (scope : Scope) (path : String) : Except Error FieldSort := do
  let field ← scope.valueField path
  if field.type.kind.supportsSort = false then
    throw (.unsupportedOperation .sorts field.path)
  field.checkSortable
  if field.type.kind = .geoPoint then throw (.unsupportedOperation .fieldSorts field.path)
  pure { path := field.path, kind := field.type.kind, hierarchy := field.hierarchy }

/-- A sort on the distance from a center, nearest first. -/
def distanceSort (scope : Scope) (path : String) (center : GeoPoint) :
    Except Error DistanceSort := do
  let field ← scope.valueField path
  if field.type.kind ≠ .geoPoint then throw (.unsupportedOperation .distances field.path)
  field.checkSortable
  pure { path := field.path, center, hierarchy := field.hierarchy }

end Scope

end SearchDsl
