import SearchDsl.Error.Basic

/-!
# `SearchDsl.Field.Codec`: field values as JSON

A value is encoded for the kind of the field that it targets. Kinds take their own values and a few
narrower ones: characters as texts, texts of one character as characters, shorter integers as longer
ones, and integers as doubles. Numbers that are not finite are refused.
-/

set_option autoImplicit false

namespace SearchDsl.FieldKind

/-- The JSON form of a value for a field of this kind, if the kind takes the value. -/
def encode? : FieldKind → FieldValue → Option Json
  | text, .text s | keyword, .text s => some (.string s)
  | text, .char c | keyword, .char c | char, .char c => some (.string c.toString)
  | char, .text s => if s.length = 1 then some (.string s) else none
  | integer, .integer n => some (.int n.toInt)
  | long, .integer n => some (.int n.toInt)
  | long, .long n => some (.int n.toInt)
  | double, .integer n => some (.double (.ofInt .binary64 n.toInt))
  | double, .long n => some (.double (.ofInt .binary64 n.toInt))
  | double, .double x => if x.isFinite then some (.double x) else none
  | boolean, .boolean b => some (.bool b)
  | localDate, .localDate d => some (.string d.text)
  | geoPoint, .geoPoint p => some p.toJson
  | _, _ => none

/-- The JSON form of a value for a field. -/
def encode (kind : FieldKind) (field : String) (value : FieldValue) : Except Error Json :=
  match kind.encode? value with
  | some json => .ok json
  | none => .error (.invalidFieldValue field kind value)

/-- The only character of a text. -/
def onlyChar? (text : String) : Option Char :=
  match text.toList with
  | [c] => some c
  | _ => none

/-- An integer of 32 bits. -/
def narrow? (n : Int64) : Option Int32 :=
  if Int32.minValue.toInt ≤ n.toInt ∧ n.toInt ≤ Int32.maxValue.toInt then some n.toInt32 else none

/-- The value that a JSON value stands for in a field of this kind. -/
def decode? : FieldKind → Json → Option FieldValue
  | text, json | keyword, json => json.asString?.map .text
  | char, json => (json.asString?.bind onlyChar?).map .char
  | integer, json => (json.asLong?.bind narrow?).map .integer
  | long, json => json.asLong?.map .long
  | double, json => json.asDouble?.map .double
  | boolean, json => json.asBool?.map .boolean
  | localDate, json => (json.asString?.bind Date.parse?).map .localDate
  | geoPoint, json => (GeoPoint.ofJson? json).map .geoPoint

/-- The value of a field, as it stands in a document. -/
def decode (kind : FieldKind) (field : String) (json : Json) : Except Error FieldValue :=
  match kind.decode? json with
  | some value => .ok value
  | none => .error (.response (.invalidValue field kind json))

end SearchDsl.FieldKind
