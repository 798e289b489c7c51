import SearchDsl.Calendar.Date
import SearchDsl.Decimal.Text
import SearchDsl.Field.Kind
import SearchDsl.Text.Quoted

/-!
# `SearchDsl.Field.Value`: typed values

The values that predicates compare with, that sorts put in place of missing ones and that
projections return.
-/

set_option autoImplicit false

namespace SearchDsl

/-- A point on the globe, in degrees. -/
structure GeoPoint where
  lat : Double
  lon : Double
deriving DecidableEq

namespace GeoPoint

/-- The point as a JSON object. -/
def toJson (p : GeoPoint) : Json :=
  .object [("lat", .ofDouble p.lat), ("lon", .ofDouble p.lon)]

/-- Reads a point from an object or from a pair of numbers. -/
def ofJson? (json : Json) : Option GeoPoint :=
  match json.fields? ["lat", "lon"] 2 with
  | some [lat, lon] => do
      let lat ← Json.required Json.asDouble? lat
      let lon ← Json.required Json.asDouble? lon
      pure ⟨lat, lon⟩
  | _ => none

end GeoPoint

/-- A typed value. -/
inductive FieldValue where
  | text (value : String)
  | char (value : Char)
  | integer (value : Int32)
  | long (value : Int64)
  | double (value : Double)
  | boolean (value : Bool)
  | localDate (value : Date)
  | geoPoint (value : GeoPoint)
deriving DecidableEq

namespace FieldValue

/-- The text of a text value. -/
def asText? : FieldValue → Option String
  | text s => some s
  | _ => none

/-- The number of an integer value of either width. -/
def asLong? : FieldValue → Option Int64
  | integer n => some n.toInt64
  | long n => some n
  | _ => none

/-- The date of a date value. -/
def asDate? : FieldValue → Option Date
  | localDate d => some d
  | _ => none

/-- How a value is shown in messages: its type, and the value in parentheses. -/
def shown : FieldValue → String
  | text s => "Text(" ++ Text.quoted s ++ ")"
  | char c => "Char(" ++ Text.quotedChar c ++ ")"
  | integer n => "Integer(" ++ toString n.toInt ++ ")"
  | long n => "Long(" ++ toString n.toInt ++ ")"
  | double x => "Double(" ++ x.text .message ++ ")"
  | boolean true => "Boolean(true)"
  | boolean false => "Boolean(false)"
  | localDate d => "LocalDate(" ++ d.text ++ ")"
  | geoPoint p =>
      "GeoPoint(GeoPoint \x7b lat: " ++ p.lat.text .message ++ ", lon: " ++ p.lon.text .message
        ++ " \x7d)"

end FieldValue

end SearchDsl
