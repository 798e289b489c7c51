import SearchDsl.Field.Value
import SearchDsl.Version.Basic

/-!
# `SearchDsl.Error.Basic`: what can go wrong

Every failure is a value that holds its cause. The wording is in `SearchDsl.Error.Message`.
-/

set_option autoImplicit false

namespace SearchDsl

/-- Operations that depend on the kind of a field. -/
inductive FieldOperation where
  | textPredicates
  | matchPredicates
  | rangePredicates
  | sorts
  | fieldSorts
  | distances
deriving DecidableEq, Repr

/-- In what two indexes can disagree about a field. -/
inductive FieldAspect where
  | type
  | nesting
  | objectStructure
deriving DecidableEq, Repr

/-- Why an argument is refused. -/
inductive ArgumentError where
  | emptyIndexName
  | invalidFieldName (name : String)
  | duplicateField (path : String)
  | analyzerNotText (path : String)
  | normalizerNotKeyword (path : String)
  | unsortableKind (path : String) (kind : FieldKind)
  | emptyScope
  | objectNotValue (path index : String)
  | valueNotObject (path index : String)
  | noTargetField
  | noMatchedField
  | severalFields
  | notEnclosed (path outer : String)
  | notSearchable (path : String)
  | kindsDiffer (first other : String)
  | nestingsDiffer (first other : String)
  | fuzzinessTooGreat (fuzziness maximum : UInt8)
  | objectNotNested (path : String)
  | objectFlattened (path : String)
  | noIdentifiers
  | notSortable (path : String)
  | notProjectable (path : String)
  | windowExceeded (window maximum : Nat)
  | noTargetIndex
  | emptyScrollId
  | sortValueCount (doc shard count expected : Nat)
deriving DecidableEq, Repr

/-- Why a configuration is refused. -/
inductive ConfigurationError where
  | zeroLimit
  | zeroScrollTimeout
  | limitExceedsWindow (limit window : UInt64)
  | invalidVersion (text : String)
deriving DecidableEq, Repr

/-- Why a response cannot be read. -/
inductive ResponseError where
  | invalidValue (field : String) (kind : FieldKind) (value : Json)
  | missingTotal
  | invalidTotal
  | invalidTotalValue
  | missingHits
  | invalidHits
  | missingInHit (key : String)
  | severalValues (path : String) (count : Nat)

/-- A failure. -/
inductive Error where
  | argument (cause : ArgumentError)
  | configuration (cause : ConfigurationError)
  /-- No index of the scope declares the field. -/
  | unknownField (path : String)
  /-- A predicate stands in a nested clause that does not enclose its fields. -/
  | misplaced (expected : String) (fieldPaths : List String)
  | unsupportedOperation (operation : FieldOperation) (field : String)
  /-- An index declares the field differently from those before it. -/
  | incompatibleField (field : String) (aspect : FieldAspect) (index : String)
  | invalidFieldValue (field : String) (kind : FieldKind) (value : FieldValue)
  | unsupportedVersion (version : Version)
  | response (cause : ResponseError)
  /-- A JSON document is malformed or does not have the expected shape. -/
  | malformed

end SearchDsl
