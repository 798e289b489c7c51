import SearchDsl.Json.Basic

/-!
# `SearchDsl.Json.Record`: reading records

A record is written as an object, whose unknown members are ignored, or as the array of its fields
in order. How a field may be left out depends on the field: it is required, it has a default, or it
is optional, and only an optional field may be null.
-/

set_option autoImplicit false

namespace SearchDsl.Json

/-- The fields of a record, in the order of their names, those that are left out as `none`. An array
holds at least `least` of them and not more than all. -/
def fields? (names : List String) (least : Nat) : Json → Option (List (Option Json))
  | object members => some (names.map fun name => find? name members)
  | array items =>
      if least ≤ items.length ∧ items.length ≤ names.length then
        some (items.map some ++ List.replicate (names.length - items.length) none)
      else none
  | _ => none

section

variable {α : Type}

/-- A field that must be there. -/
def required (read : Json → Option α) (field : Option Json) : Option α :=
  field.bind read

/-- A field that has a value of its own when it is left out. -/
def defaulting (value : α) (read : Json → Option α) : Option Json → Option α
  | none => some value
  | some json => read json

/-- A field that may be left out or null. -/
def optional (read : Json → Option α) : Option Json → Option (Option α)
  | none => some none
  | some null => some none
  | some json => (read json).map some

end

/-- A name from an enumeration: a text, or the only key of an object whose value is empty. Null is
empty, and so is the object without members where `emptyObject` says so. -/
def tag? (emptyObject : Bool) : Json → Option String
  | string name => some name
  | object [(name, null)] => some name
  | object [(name, object [])] => if emptyObject then some name else none
  | _ => none

end SearchDsl.Json
