import SearchDsl.Field.Type

/-!
# `SearchDsl.Schema.Definition`: declared fields

An index declares value fields and object fields, and an object field declares fields of its own.
The sub-fields of a flattened object belong to the document of its parent, those of a nested object
to documents of their own. The JSON form of a definition says in its member `kind` which of the two
it is.
-/

set_option autoImplicit false

namespace SearchDsl

/-- How the objects of an object field are stored. -/
inductive ObjectLayout where
  /-- Their fields belong to the parent document. -/
  | flattened
  /-- Each object is a document of its own. -/
  | nested
deriving DecidableEq, Repr

namespace ObjectLayout

/-- The name in schema definitions. -/
def tag : ObjectLayout → String
  | flattened => "flattened"
  | nested => "nested"

/-- Reads a layout, on its own or inside the definition of a field. -/
def ofJson? (inDefinition : Bool) (json : Json) : Option ObjectLayout :=
  (json.tag? inDefinition).bind fun tag =>
    if tag = "flattened" then some flattened
    else if tag = "nested" then some nested
    else none

end ObjectLayout

/-- A declared field. -/
inductive Definition where
  | value (name : String) (type : FieldType) (multiValued : Bool)
  | object (name : String) (layout : ObjectLayout) (multiValued : Bool)
      (children : List Definition)

namespace Definition

/-- The name among the fields it is declared with. -/
def name : Definition → String
  | value name .. => name
  | object name .. => name

mutual

/-- Writes a definition. -/
def toJson : Definition → Json
  | value name type multiValued =>
      .object [("field_type", type.toJson), ("kind", .string "value"),
        ("multi_valued", .bool multiValued), ("name", .string name)]
  | object name layout multiValued children =>
      .object [("children", .array (listToJson children)), ("kind", .string "object"),
        ("multi_valued", .bool multiValued), ("name", .string name),
        ("structure", .string layout.tag)]

/-- Writes definitions one by one. -/
def listToJson : List Definition → List Json
  | [] => []
  | definition :: rest => toJson definition :: listToJson rest

end

/-- The two kinds of definitions. -/
inductive Variant where
  | value
  | object
deriving DecidableEq, Repr

/-- Reads which kind of definition something is. Among the children of an object the kind may also
be given by its position, zero for values and one for objects. -/
def Variant.ofJson? (isChild : Bool) : Json → Option Variant
  | .string tag =>
      if tag = "value" then some .value else if tag = "object" then some .object else none
  | .int n =>
      if isChild ∧ n = 0 then some .value else if isChild ∧ n = 1 then some .object else none
  | _ => none

/-- Reads a value field from the record of its fields. -/
def valueOfRecord? (record : Json) : Option Definition :=
  match record.fields? ["name", "field_type", "multi_valued"] 2 with
  | some [name, type, multiValued] => do
      let name ← Json.required Json.asString? name
      let type ← Json.required (FieldType.ofJson? true) type
      let multiValued ← Json.defaulting false Json.asBool? multiValued
      pure (value name type multiValued)
  | _ => none

/-- Reads an object field from the record of its fields, the children being read already. -/
def objectOfRecord? (record : Json) (children : List Definition) : Option Definition :=
  match record.fields? ["name", "structure", "multi_valued", "children"] 1 with
  | some [name, layout, multiValued, _] => do
      let name ← Json.required Json.asString? name
      let layout ← Json.defaulting .flattened (ObjectLayout.ofJson? true) layout
      let multiValued ← Json.defaulting false Json.asBool? multiValued
      pure (object name layout multiValued children)
  | _ => none

mutual

/-- Reads a definition. The kind is a member of its own or the first element of an array. The
children of a value are not looked at. -/
def ofJson? (isChild : Bool) : Json → Option Definition
  | .object members =>
      match (Json.find? "kind" members).bind (Variant.ofJson? isChild) with
      | some .value => valueOfRecord? (.object members)
      | some .object => (childrenOf? members).bind (objectOfRecord? (.object members))
      | none => none
  | .array (kind :: fields) =>
      match Variant.ofJson? isChild kind with
      | some .value => valueOfRecord? (.array fields)
      | some .object => (childrenAt? 3 fields).bind (objectOfRecord? (.array fields))
      | none => none
  | _ => none

/-- The children among the members of an object field, none if they are left out. -/
def childrenOf? : List (String × Json) → Option (List Definition)
  | [] => some []
  | (key, json) :: rest => if key = "children" then arrayOfJson? true json else childrenOf? rest

/-- The children at a position among the fields of an object field, none if they are left out. -/
def childrenAt? (position : Nat) : List Json → Option (List Definition)
  | [] => some []
  | json :: rest =>
      if position = 0 then arrayOfJson? true json else childrenAt? (position - 1) rest

/-- Reads an array of definitions. -/
def arrayOfJson? (isChild : Bool) : Json → Option (List Definition)
  | .array items => itemsOfJson? isChild items
  | _ => none

/-- Reads definitions one by one. -/
def itemsOfJson? (isChild : Bool) : List Json → Option (List Definition)
  | [] => some []
  | item :: rest => do
      let definition ← ofJson? isChild item
      let definitions ← itemsOfJson? isChild rest
      pure (definition :: definitions)

end

/-- Reads the definitions of an index. -/
def listOfJson? (json : Json) : Option (List Definition) := arrayOfJson? false json

end Definition

end SearchDsl
