import SearchDsl.Schema.Descriptor
import SearchDsl.Text.Sorted

/-!
# `SearchDsl.Schema.Index`: indexes

An index has a name and declared fields that have passed their checks, so its fields have distinct
paths. The mapping of an index tells Elasticsearch about the fields.
-/

set_option autoImplicit false

namespace SearchDsl

/-- An index with valid definitions. -/
structure Index where
  name : String
  definitions : List Definition
  name_ne : name ≠ ""
  checked : Definition.checkAll none [] definitions = .ok ()

namespace Definition

/-- The type of an object field in a mapping. -/
def layoutName : ObjectLayout → String
  | .flattened => "object"
  | .nested => "nested"

mutual

/-- The mapping of a field. Objects refuse fields that are not declared. -/
def mapping : Definition → Json
  | value _ type _ => type.mapping
  | object _ layout _ children =>
      .object [("dynamic", .string "strict"), ("properties", .object (properties children)),
        ("type", .string (layoutName layout))]

/-- The mappings of several fields, by their names. -/
def properties : List Definition → List (String × Json)
  | [] => []
  | definition :: rest => Json.put definition.name (mapping definition) (properties rest)

end

end Definition

namespace Index

/-- The index with the given definitions, if they are valid. -/
def ofDefinitions (name : String) (definitions : List Definition) : Except Error Index :=
  if hname : name = "" then .error (.argument .emptyIndexName)
  else
    match hcheck : Definition.checkAll none [] definitions with
    | .ok () => .ok ⟨name, definitions, hname, hcheck⟩
    | .error e => .error e

/-- The fields of an index, in the order of declaration. -/
def fields (index : Index) : List Descriptor :=
  Definition.describeAll none [] index.definitions

/-- The field at an absolute path. -/
def field? (index : Index) (path : String) : Option Descriptor :=
  index.fields.find? fun field => field.path = path

/-- The paths of all fields, in increasing order. -/
def fieldPaths (index : Index) : List String :=
  Text.sorted (index.fields.map Descriptor.path)

/-- The mapping of an index. -/
def mapping (index : Index) : Json :=
  .single "properties" (.object (Definition.properties index.definitions))

end Index

end SearchDsl
