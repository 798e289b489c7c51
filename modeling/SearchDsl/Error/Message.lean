import SearchDsl.Error.Basic
import SearchDsl.Json.Printer

/-!
# `SearchDsl.Error.Message`: the wording of failures
-/

set_option autoImplicit false

namespace SearchDsl

/-- The subject of the message that an operation does not apply. -/
def FieldOperation.subject : FieldOperation → String
  | textPredicates => "Text predicates"
  | matchPredicates => "Match predicates"
  | rangePredicates => "Range predicates"
  | sorts => "Sorts"
  | fieldSorts => "Field sorts"
  | distances => "Distance related operations"

/-- The name of an aspect in which indexes disagree. -/
def FieldAspect.name : FieldAspect → String
  | type => "type"
  | nesting => "nested structure"
  | objectStructure => "object structure"

/-- The message of a refused argument. -/
def ArgumentError.message : ArgumentError → String
  | emptyIndexName => "Index name must not be empty"
  | invalidFieldName name =>
      s!"Invalid field name '{name}': names must be non-empty and must not contain '.'"
  | duplicateField path => s!"Field '{path}' is declared more than once"
  | analyzerNotText path => s!"Field '{path}': an analyzer can only be set on text fields"
  | normalizerNotKeyword path => s!"Field '{path}': a normalizer can only be set on keyword fields"
  | unsortableKind path kind => s!"Field '{path}': {kind.name} fields cannot be sortable"
  | emptyScope => "A search scope must target at least one index"
  | objectNotValue path index =>
      s!"Field '{path}' is an object field in index '{index}', not a value field"
  | valueNotObject path index =>
      s!"Field '{path}' is a value field in index '{index}', not an object field"
  | noTargetField => "A field predicate must target at least one field"
  | noMatchedField => "A predicate must target at least one field"
  | severalFields => "Only match predicates can target several fields"
  | notEnclosed path outer => s!"Nested path '{path}' is not enclosed in '{outer}'"
  | notSearchable path => s!"Field '{path}' is not searchable"
  | kindsDiffer first other =>
      s!"Cannot match fields '{first}' and '{other}' at once: their types differ"
  | nestingsDiffer first other =>
      s!"Fields '{first}' and '{other}' are enclosed in different nested objects"
  | fuzzinessTooGreat fuzziness maximum =>
      s!"Invalid fuzziness {fuzziness.toNat}: must be at most {maximum.toNat}"
  | objectNotNested path => s!"Object field '{path}' is not nested"
  | objectFlattened path =>
      s!"Object field '{path}' is flattened: nested predicates require a nested object"
  | noIdentifiers => "An id predicate must match at least one identifier"
  | notSortable path => s!"Field '{path}' is not sortable: declare it sortable to sort on it"
  | notProjectable path =>
      s!"Field '{path}' is not projectable: declare it projectable to project it"
  | windowExceeded window maximum =>
      s!"offset + limit ({window}) exceeds the maximum result window ({maximum})"
  | noTargetIndex => "A search must target at least one index"
  | emptyScrollId => "Scroll id must not be empty"
  | sortValueCount doc shard count expected =>
      s!"Hit {doc} of shard {shard} has {count} sort values, expected {expected}"

/-- The message of a refused configuration. -/
def ConfigurationError.message : ConfigurationError → String
  | zeroLimit => "default_limit must be greater than 0"
  | zeroScrollTimeout => "scroll_timeout_secs must be greater than 0"
  | limitExceedsWindow limit window =>
      s!"default_limit ({limit.toNat}) exceeds max_result_window ({window.toNat})"
  | invalidVersion text =>
      s!"Invalid Elasticsearch version '{text}': "
        ++ "expected <major>[.<minor>[.<micro>]][-<qualifier>]"

/-- The message of an unreadable response. -/
def ResponseError.message : ResponseError → String
  | invalidValue field kind value =>
      s!"value {value.compact} of field '{field}' is not a valid {kind.name}"
  | missingTotal => "missing 'hits.total'"
  | invalidTotal => "missing or invalid 'hits.total'"
  | invalidTotalValue => "missing or invalid 'hits.total.value'"
  | missingHits => "missing 'hits'"
  | invalidHits => "missing or invalid 'hits.hits'"
  | missingInHit key => s!"missing '{key}' in hit"
  | severalValues path count =>
      s!"field '{path}' has {count} values in '_source', expected at most one"

/-- The message of a failure. -/
def Error.message : Error → String
  | argument cause => "Invalid argument: " ++ cause.message
  | configuration cause => "Invalid configuration: " ++ cause.message
  | unknownField path => s!"Unknown field '{path}'"
  | misplaced expected fieldPaths =>
      s!"Invalid nested object path '{expected}' for predicate on fields "
        ++ Text.quotedList fieldPaths
        ++ ": the predicate must be nested in an object path enclosing these fields"
  | unsupportedOperation operation field =>
      s!"{operation.subject} are not supported by the type of field '{field}'"
  | incompatibleField field aspect index =>
      s!"Field '{field}' is incompatible across the targeted indexes: "
        ++ s!"{aspect.name} in index '{index}' differs from the other indexes"
  | invalidFieldValue field kind value =>
      s!"Invalid value for field '{field}': expected a {kind.name} value, got {value.shown}"
  | unsupportedVersion version => s!"Unsupported Elasticsearch version: {version.text}"
  | response cause => "Invalid response: " ++ cause.message
  | malformed => "Malformed JSON"

end SearchDsl
