import SearchDsl.Field.Kind

/-!
# `SearchDsl.Field.Type`: field types

A field type is a kind with its indexing options: how texts are analyzed and which operations the
index is prepared for.
-/

set_option autoImplicit false

namespace SearchDsl

/-- A kind together with its indexing options. -/
structure FieldType where
  kind : FieldKind
  /-- How full text is split into terms. -/
  analyzer : Option String := none
  /-- How a keyword is normalized before it is compared. -/
  normalizer : Option String := none
  searchable : Bool := true
  sortable : Bool := false
  projectable : Bool := true
deriving DecidableEq, Repr

namespace FieldType

/-- Whether one predicate or sort can target fields of both types. Kinds and text analysis must be
the same. The options on what is indexed are a matter of each operation. -/
def isCompatible (a b : FieldType) : Bool :=
  a.kind = b.kind && a.analyzer = b.analyzer && a.normalizer = b.normalizer

/-- The name of the type in index mappings. -/
def mappingName (type : FieldType) : String :=
  match type.kind with
  | .text => "text"
  | .keyword | .char => "keyword"
  | .integer => "integer"
  | .long => "long"
  | .double => "double"
  | .boolean => "boolean"
  | .localDate => "date"
  | .geoPoint => "geo_point"

/-- The mapping of a field of this type. Full text has no values per document to sort on, so it does
not say whether to keep them. -/
def mapping (type : FieldType) : Json :=
  .object <|
    Json.member? "analyzer" (type.analyzer.map .string)
    ++ Json.member? "doc_values" (if type.kind = .text then none else some (.bool type.sortable))
    ++ Json.member? "format" (if type.kind = .localDate then some (.string "strict_date") else none)
    ++ Json.member? "index" (if type.searchable then none else some (.bool false))
    ++ Json.member? "normalizer" (type.normalizer.map .string)
    ++ [("type", .string type.mappingName)]

/-- Writes a type. Options of text analysis that are not set are left out. -/
def toJson (type : FieldType) : Json :=
  .object <|
    Json.member? "analyzer" (type.analyzer.map .string)
    ++ [("kind", .string type.kind.tag)]
    ++ Json.member? "normalizer" (type.normalizer.map .string)
    ++ [("projectable", .bool type.projectable),
      ("searchable", .bool type.searchable),
      ("sortable", .bool type.sortable)]

/-- Reads a type, on its own or inside the definition of a field. Only the kind is required. -/
def ofJson? (inDefinition : Bool) (json : Json) : Option FieldType :=
  match json.fields?
      ["kind", "analyzer", "normalizer", "searchable", "sortable", "projectable"] 1 with
  | some [kind, analyzer, normalizer, searchable, sortable, projectable] => do
      let kind ← Json.required (FieldKind.ofJson? inDefinition) kind
      let analyzer ← Json.optional Json.asString? analyzer
      let normalizer ← Json.optional Json.asString? normalizer
      let searchable ← Json.defaulting true Json.asBool? searchable
      let sortable ← Json.defaulting false Json.asBool? sortable
      let projectable ← Json.defaulting true Json.asBool? projectable
      pure ⟨kind, analyzer, normalizer, searchable, sortable, projectable⟩
  | _ => none

end FieldType

end SearchDsl
