import SearchDsl.Path
import SearchDsl.Schema.Definition

/-!
# `SearchDsl.Schema.Descriptor`: fields with their absolute paths

Describing definitions gives every declared field its absolute path and its nesting hierarchy: the
paths of the nested objects around it, outermost first. A nested object is the last of its own
hierarchy.

Definitions are checked separately: names, repeated declarations and the options of field types, in
the order of declaration.
-/

set_option autoImplicit false

namespace SearchDsl

/-- Checks that the options of a type make sense for its kind. -/
def FieldType.check (type : FieldType) (path : String) : Except Error Unit :=
  if type.analyzer.isSome ∧ type.kind ≠ .text then .error (.argument (.analyzerNotText path))
  else if type.normalizer.isSome ∧ type.kind ≠ .keyword then
    .error (.argument (.normalizerNotKeyword path))
  else if type.sortable ∧ ¬type.kind.supportsSort then
    .error (.argument (.unsortableKind path type.kind))
  else .ok ()

/-- A field is a value or an object. -/
inductive FieldShape where
  | value (type : FieldType)
  | object (layout : ObjectLayout)
deriving DecidableEq, Repr

/-- A field as an index knows it. -/
structure Descriptor where
  /-- The absolute path. -/
  path : String
  /-- The name within its parent. -/
  name : String
  shape : FieldShape
  multiValued : Bool
  /-- The paths of the nested objects around the field, outermost first. -/
  hierarchy : List String
deriving DecidableEq, Repr

namespace Definition

/-- Whether a name can be given to a field. -/
def isValidName (name : String) : Bool := name ≠ "" && !name.toList.contains '.'

/-- Checks the name of a field against the names of the fields before it in the same object. -/
def checkName (parent : Option String) (before : List String) (name : String) :
    Except Error Unit :=
  if isValidName name = false then .error (.argument (.invalidFieldName name))
  else if name ∈ before then .error (.argument (.duplicateField (Path.join parent name)))
  else .ok ()

mutual

/-- Checks a definition and everything below it. -/
def check (parent : Option String) (before : List String) : Definition → Except Error Unit
  | value name type _ => do
      checkName parent before name
      type.check (Path.join parent name)
  | object name _ _ children => do
      checkName parent before name
      checkAll (some (Path.join parent name)) [] children

/-- Checks definitions that follow those named in `before`. -/
def checkAll (parent : Option String) (before : List String) :
    List Definition → Except Error Unit
  | [] => .ok ()
  | definition :: rest => do
      check parent before definition
      checkAll parent (definition.name :: before) rest

end

/-- The hierarchy inside an object: a nested object adds its own path. -/
def enclose (layout : ObjectLayout) (path : String) (hierarchy : List String) : List String :=
  match layout with
  | .flattened => hierarchy
  | .nested => hierarchy ++ [path]

mutual

/-- The field of a definition and those below it, each before the fields that it contains. -/
def describe (parent : Option String) (hierarchy : List String) : Definition → List Descriptor
  | value name type multiValued =>
      [⟨Path.join parent name, name, .value type, multiValued, hierarchy⟩]
  | object name layout multiValued children =>
      let path := Path.join parent name
      let inside := enclose layout path hierarchy
      ⟨path, name, .object layout, multiValued, inside⟩ :: describeAll (some path) inside children

/-- The fields of several definitions, in order. -/
def describeAll (parent : Option String) (hierarchy : List String) :
    List Definition → List Descriptor
  | [] => []
  | definition :: rest =>
      describe parent hierarchy definition ++ describeAll parent hierarchy rest

end

end Definition

end SearchDsl
