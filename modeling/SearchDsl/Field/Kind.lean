import SearchDsl.Json.Record

/-!
# `SearchDsl.Field.Kind`: the kinds of values that fields hold

The kind of a field decides which values it takes and which operations apply to it.
-/

set_option autoImplicit false

namespace SearchDsl

/-- What a value field holds. -/
inductive FieldKind where
  /-- Analyzed full text. -/
  | text
  /-- A text that is matched as a whole. -/
  | keyword
  /-- A single character, indexed like a keyword. -/
  | char
  | integer
  | long
  | double
  | boolean
  /-- A calendar date without a time zone. -/
  | localDate
  | geoPoint
deriving DecidableEq, Repr

namespace FieldKind

/-- All kinds. -/
def all : List FieldKind :=
  [text, keyword, char, integer, long, double, boolean, localDate, geoPoint]

/-- The name in messages. -/
def name : FieldKind → String
  | text => "text"
  | keyword => "keyword"
  | char => "char"
  | integer => "integer"
  | long => "long"
  | double => "double"
  | boolean => "boolean"
  | localDate => "local date"
  | geoPoint => "geo point"

/-- The name in schema definitions. -/
def tag : FieldKind → String
  | localDate => "local_date"
  | geoPoint => "geo_point"
  | kind => kind.name

/-- The kind with this name in schema definitions. -/
def ofTag? (tag : String) : Option FieldKind :=
  all.find? fun kind => kind.tag = tag

/-- Reads a kind, on its own or inside the definition of a field. -/
def ofJson? (inDefinition : Bool) (json : Json) : Option FieldKind :=
  (json.tag? inDefinition).bind ofTag?

/-- Whether phrases, wildcards and fuzzy matches apply. -/
def supportsText : FieldKind → Bool
  | text | keyword => true
  | _ => false

/-- Whether ranges apply. -/
def supportsRange : FieldKind → Bool
  | boolean | geoPoint => false
  | _ => true

/-- Whether there are sorts on fields of this kind. -/
def supportsSort : FieldKind → Bool
  | text => false
  | _ => true

/-- A kind is found again by its tag. -/
theorem ofTag?_tag (kind : FieldKind) : ofTag? kind.tag = some kind := by
  cases kind <;> decide

end FieldKind

end SearchDsl
