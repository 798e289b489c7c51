import SearchDsl.Field.Codec
import SearchDsl.Predicate.Nesting
import SearchDsl.Scope

/-!
# `SearchDsl.Scope.Predicates`: predicates on the fields of a scope

These functions resolve field paths, check that the fields support the test and encode the values.
The predicates that they return carry the nesting hierarchies of their fields, so they can be
combined freely and render to valid queries.
-/

set_option autoImplicit false

namespace SearchDsl

/-- The greatest edit distance of a fuzzy match. -/
def maxFuzziness : UInt8 := 2

/-- The limits of a range predicate. -/
inductive RangeLimits where
  | atLeast (value : FieldValue)
  | greaterThan (value : FieldValue)
  | atMost (value : FieldValue)
  | lessThan (value : FieldValue)
  | between (lower upper : FieldValue)

namespace ValueField

/-- Checks that predicates can test the field. -/
def checkSearchable (field : ValueField) : Except Error Unit :=
  if field.type.searchable then .ok () else .error (.argument (.notSearchable field.path))

/-- Checks that a value can be matched with the field together with the first of the fields. -/
def checkMatched (first field : ValueField) : Except Error Unit := do
  field.checkSearchable
  if field.type.kind = .geoPoint then
    throw (.unsupportedOperation .matchPredicates field.path)
  if field.type.kind ≠ first.type.kind then
    throw (.argument (.kindsDiffer first.path field.path))

/-- The JSON form of a value of the field. -/
def encode (field : ValueField) (value : FieldValue) : Except Error Json :=
  field.type.kind.encode field.path value

/-- A predicate on several fields, which have to stand in the same nested objects. -/
def test (first : ValueField) (others : List ValueField) (test : FieldTest) :
    Except Error FieldPredicate :=
  match others.find? fun field => field.hierarchy ≠ first.hierarchy with
  | some other => .error (.argument (.nestingsDiffer first.path other.path))
  | none => FieldPredicate.create (first.path :: others.map ValueField.path) first.hierarchy test

/-- The two ends of a range on the field. -/
def bounds (field : ValueField) : RangeLimits → Except Error (Bound × Bound)
  | .atLeast value => do pure (.included (← field.encode value), .unbounded)
  | .greaterThan value => do pure (.excluded (← field.encode value), .unbounded)
  | .atMost value => do pure (.unbounded, .included (← field.encode value))
  | .lessThan value => do pure (.unbounded, .excluded (← field.encode value))
  | .between lower upper => do
      let lower ← field.encode lower
      let upper ← field.encode upper
      pure (.included lower, .included upper)

end ValueField

namespace Scope

/-- The value is matched by any of several fields of one kind. -/
def matchFields (scope : Scope) (paths : List String) (value : FieldValue) :
    Except Error FieldPredicate :=
  match paths with
  | [] => .error (.argument .noMatchedField)
  | path :: paths => do
      let first ← scope.valueField path
      let others ← paths.mapM scope.valueField
      (first :: others).forM first.checkMatched
      let value ← first.encode value
      first.test others (.matching value none)

/-- The value is matched by a field. -/
def matchField (scope : Scope) (path : String) (value : FieldValue) :
    Except Error FieldPredicate :=
  scope.matchFields [path] value

/-- A searchable field that holds text. -/
def textField (scope : Scope) (path : String) : Except Error ValueField := do
  let field ← scope.valueField path
  field.checkSearchable
  if field.type.kind.supportsText then pure field
  else throw (.unsupportedOperation .textPredicates field.path)

/-- The text is matched by a field up to a number of edits. -/
def fuzzyMatch (scope : Scope) (path text : String) (fuzziness : UInt8) :
    Except Error FieldPredicate := do
  let field ← scope.textField path
  if maxFuzziness < fuzziness then throw (.argument (.fuzzinessTooGreat fuzziness maxFuzziness))
  field.test [] (.matching (.string text) (some fuzziness))

/-- The terms of a phrase follow each other in a field. -/
def phrase (scope : Scope) (path text : String) : Except Error FieldPredicate := do
  let field ← scope.textField path
  field.test [] (.phrase text 0)

/-- A field matches a pattern. -/
def wildcard (scope : Scope) (path pattern : String) : Except Error FieldPredicate := do
  let field ← scope.textField path
  field.test [] (.wildcard pattern)

/-- A field has a value. -/
def existsField (scope : Scope) (path : String) : Except Error FieldPredicate := do
  let field ← scope.valueField path
  field.checkSearchable
  field.test [] .exists

/-- A searchable field with an order. -/
def rangeField (scope : Scope) (path : String) : Except Error ValueField := do
  let field ← scope.valueField path
  field.checkSearchable
  if field.type.kind.supportsRange then pure field
  else throw (.unsupportedOperation .rangePredicates field.path)

/-- The value of a field lies within limits. -/
def range (scope : Scope) (path : String) (limits : RangeLimits) :
    Except Error FieldPredicate := do
  let field ← scope.rangeField path
  let (lower, upper) ← field.bounds limits
  FieldPredicate.create [field.path] field.hierarchy (.range lower upper)

/-- A document of the nested object at the path matches the inner predicate. -/
def nested (scope : Scope) (path : String) (inner : Predicate) : Except Error Predicate := do
  let object ← scope.objectField path
  if object.layout ≠ .nested then throw (.argument (.objectFlattened path))
  Predicate.createNested object.path object.hierarchy inner

end Scope

end SearchDsl
