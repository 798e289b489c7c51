import SearchDsl.Field.Codec
import SearchDsl.Proofs.Calendar.Date
import SearchDsl.Proofs.Json.Numbers

/-!
# `SearchDsl.Proofs.Field.Codec`: what was encoded is decoded again

Encoding and decoding are two tables over the kinds of fields. `FieldKind.encode_decode` starts from
a document: what is decoded from it can be encoded, and the encoding stands for the same value.
Texts of dates, integers for doubles and pairs of coordinates come out in another form the first
time and in the same form from then on.

`FieldKind.decode_encode` starts from a value. Where a kind takes values of another type it reads
back its own type (`FieldKind.ReadsBack`). The only values that do not come back are points with a
coordinate that is not a finite number. Doubles of that sort are refused, but the coordinates of a
point are not looked at, and they become null.
-/

set_option autoImplicit false

namespace SearchDsl

/-! ### Finite values -/

/-- Whether both coordinates are finite numbers. -/
def GeoPoint.isFinite (p : GeoPoint) : Bool := p.lat.isFinite && p.lon.isFinite

/-- Whether all numbers in a value are finite. -/
def FieldValue.isFinite : FieldValue → Bool
  | double x => x.isFinite
  | geoPoint p => p.isFinite
  | _ => true

namespace GeoPoint

/-- The point of two members, each with a number. -/
theorem ofJson?_object (lat lon : Json) :
    ofJson? (.object [("lat", lat), ("lon", lon)])
      = lat.asDouble?.bind fun x => lon.asDouble?.map fun y => ⟨x, y⟩ := by
  have hfields : (Json.object [("lat", lat), ("lon", lon)]).fields? ["lat", "lon"] 2
      = some [some lat, some lon] := rfl
  unfold ofJson?
  simp only [hfields, Json.required, Option.bind_some]
  cases lat.asDouble? <;> cases lon.asDouble? <;> rfl

/-- A double is read back from its JSON if it is finite, and otherwise nothing is, since it is
written as null. -/
theorem asDouble?_ofDouble (x : Double) :
    (Json.ofDouble x).asDouble? = if x.isFinite then some x else none := by
  unfold Json.ofDouble
  split <;> rfl

/-- A point is read back unless one of its coordinates has become null. -/
theorem ofJson?_toJson (p : GeoPoint) : ofJson? p.toJson = if p.isFinite then some p else none := by
  unfold toJson isFinite
  rw [ofJson?_object, asDouble?_ofDouble, asDouble?_ofDouble]
  cases p.lat.isFinite <;> cases p.lon.isFinite <;> rfl

/-- The coordinates of a point in a document are finite. -/
theorem isFinite_of_ofJson? {json : Json} (hjson : json.InRange) {p : GeoPoint}
    (h : ofJson? json = some p) : p.isFinite = true := by
  unfold ofJson? at h
  split at h
  · rename_i lat lon hfields
    have hpart := Json.inRange_of_fields? hjson hfields
    obtain ⟨x, hx, h⟩ := Option.bind_eq_some_iff.mp h
    obtain ⟨y, hy, h⟩ := Option.bind_eq_some_iff.mp h
    obtain rfl := Option.some.inj h
    obtain ⟨latValue, rfl, hlat⟩ := Option.bind_eq_some_iff.mp hx
    obtain ⟨lonValue, rfl, hlon⟩ := Option.bind_eq_some_iff.mp hy
    have hx := Json.isFinite_of_asDouble? (hpart latValue (by simp)) hlat
    have hy := Json.isFinite_of_asDouble? (hpart lonValue (by simp)) hlon
    simp [isFinite, hx, hy]
  · simp at h

end GeoPoint

namespace FieldKind

/-! ### Integers -/

/-- A 64-bit integer is read back from its JSON. -/
theorem asLong?_int (n : Int64) : (Json.int n.toInt).asLong? = some n := by
  have hlow := n.le_toInt
  have hhigh := n.toInt_lt
  have hmin : Int64.minValue.toInt = -2 ^ 63 := Int64.toInt_minValue
  have hmax : Int64.maxValue.toInt = 2 ^ 63 - 1 := rfl
  unfold Json.asLong?
  simp only
  rw [if_pos (by omega), Int64.ofInt_toInt]

/-- A shorter integer is the longer one of the same value. -/
theorem asLong?_int32 (n : Int32) : (Json.int n.toInt).asLong? = some n.toInt64 := by
  rw [← Int32.toInt_toInt64, asLong?_int]

/-- A 32-bit integer that was widened is narrowed to itself. -/
theorem narrow?_toInt64 (n : Int32) : narrow? n.toInt64 = some n := by
  have hlow := n.le_toInt
  have hhigh := n.toInt_lt
  have hmin : Int32.minValue.toInt = -2 ^ 31 := Int32.toInt_minValue
  have hmax : Int32.maxValue.toInt = 2 ^ 31 - 1 := rfl
  unfold narrow?
  rw [Int32.toInt_toInt64, if_pos (by omega), Int32.toInt32_toInt64]

/-! ### From values to documents and back -/

/-- What a kind gives back for a value that it takes. It keeps values of its own type. Characters
turn into texts and texts of one character into characters, as the kind has it, shorter integers
into longer ones, and integers into the nearest doubles. -/
def ReadsBack : FieldKind → FieldValue → FieldValue → Prop
  | text, .char c, result | keyword, .char c, result => result = .text c.toString
  | char, .text s, result => ∃ c, s.toList = [c] ∧ result = .char c
  | long, .integer n, result => ∃ m : Int64, m.toInt = n.toInt ∧ result = .long m
  | double, .integer n, result => ∃ x, Binary.IsNearest n.toInt x ∧ result = .double x
  | double, .long n, result => ∃ x, Binary.IsNearest n.toInt x ∧ result = .double x
  | _, value, result => result = value

/-- An integer of 64 bits rounds to a nearest double, since it lies inside the range of doubles. -/
theorem isNearest_ofInt_long (n : Int64) :
    Binary.IsNearest n.toInt (Binary.ofInt .binary64 n.toInt) := by
  have hlow := n.le_toInt
  have hhigh := n.toInt_lt
  exact Binary.isNearest_ofInt (by decide) (Binary.isFinite_ofInt (by omega))

/-- The only character of a text of length one. -/
theorem onlyChar?_of_length {s : String} (h : s.length = 1) :
    ∃ c, s.toList = [c] ∧ onlyChar? s = some c := by
  rw [← String.length_toList] at h
  obtain ⟨c, hc⟩ := List.length_eq_one_iff.mp h
  refine ⟨c, hc, ?_⟩
  rw [onlyChar?, hc]

/-- What is encoded is decoded as the value that the kind gives back, if it is finite. -/
theorem decode?_of_encode? {kind : FieldKind} {value : FieldValue} {json : Json}
    (h : kind.encode? value = some json) (hfinite : value.isFinite = true) :
    ∃ result, kind.decode? json = some result ∧ kind.ReadsBack value result := by
  unfold encode? at h
  -- One case for each row of the table of encodings, in its order.
  split at h
  case h_1 s | h_2 s =>
    obtain rfl := Option.some.inj h
    exact ⟨.text s, rfl, rfl⟩
  case h_3 c | h_4 c =>
    obtain rfl := Option.some.inj h
    exact ⟨.text c.toString, rfl, rfl⟩
  case h_5 c =>
    obtain rfl := Option.some.inj h
    refine ⟨.char c, ?_, rfl⟩
    have hchar : onlyChar? c.toString = some c := by
      rw [onlyChar?, Char.toString_eq_singleton, String.toList_singleton]
    show ((some c.toString).bind onlyChar?).map FieldValue.char = _
    rw [Option.bind_some, hchar, Option.map_some]
  case h_6 s =>
    obtain ⟨hlength, hjson⟩ := Option.ite_none_right_eq_some.mp h
    obtain rfl := Option.some.inj hjson
    obtain ⟨c, hc, hchar⟩ := onlyChar?_of_length hlength
    refine ⟨.char c, ?_, c, hc, rfl⟩
    show ((some s).bind onlyChar?).map FieldValue.char = _
    rw [Option.bind_some, hchar, Option.map_some]
  case h_7 n =>
    obtain rfl := Option.some.inj h
    refine ⟨.integer n, ?_, rfl⟩
    rw [decode?, asLong?_int32, Option.bind_some, narrow?_toInt64, Option.map_some]
  case h_8 n =>
    obtain rfl := Option.some.inj h
    refine ⟨.long n.toInt64, ?_, n.toInt64, Int32.toInt_toInt64 n, rfl⟩
    rw [decode?, asLong?_int32, Option.map_some]
  case h_9 n =>
    obtain rfl := Option.some.inj h
    refine ⟨.long n, ?_, rfl⟩
    rw [decode?, asLong?_int, Option.map_some]
  case h_10 n =>
    obtain rfl := Option.some.inj h
    refine ⟨.double (.ofInt .binary64 n.toInt), rfl, _, ?_, rfl⟩
    rw [← Int32.toInt_toInt64]
    exact isNearest_ofInt_long n.toInt64
  case h_11 n =>
    obtain rfl := Option.some.inj h
    exact ⟨.double (.ofInt .binary64 n.toInt), rfl, _, isNearest_ofInt_long n, rfl⟩
  case h_12 x =>
    obtain ⟨-, hjson⟩ := Option.ite_none_right_eq_some.mp h
    obtain rfl := Option.some.inj hjson
    exact ⟨.double x, rfl, rfl⟩
  case h_13 b =>
    obtain rfl := Option.some.inj h
    exact ⟨.boolean b, rfl, rfl⟩
  case h_14 d =>
    obtain rfl := Option.some.inj h
    refine ⟨.localDate d, ?_, rfl⟩
    show ((some d.text).bind Date.parse?).map FieldValue.localDate = _
    rw [Option.bind_some, Date.parse?_text, Option.map_some]
  case h_15 p =>
    obtain rfl := Option.some.inj h
    refine ⟨.geoPoint p, ?_, rfl⟩
    have hpoint : p.isFinite = true := hfinite
    rw [decode?, GeoPoint.ofJson?_toJson, if_pos hpoint, Option.map_some]
  case h_16 => simp at h

/-- A value that is not finite and is encoded all the same is a point, and does not come back. -/
theorem decode?_of_not_isFinite {kind : FieldKind} {value : FieldValue} {json : Json}
    (h : kind.encode? value = some json) (hfinite : value.isFinite = false) :
    (∃ p, value = .geoPoint p) ∧ kind.decode? json = none := by
  cases value with
  | double x =>
      -- The double kind refuses it, and all others refuse doubles.
      cases kind <;> simp_all [encode?, FieldValue.isFinite]
  | geoPoint p =>
      obtain rfl : kind = geoPoint := by cases kind <;> simp_all [encode?]
      obtain rfl := Option.some.inj h
      refine ⟨⟨p, rfl⟩, ?_⟩
      rw [decode?, GeoPoint.ofJson?_toJson]
      have hpoint : p.isFinite = false := hfinite
      rw [hpoint]
      rfl
  | text s | char c | integer n | long n | boolean b | localDate d =>
      simp [FieldValue.isFinite] at hfinite

/-- Encoding succeeds exactly if the kind takes the value. -/
theorem encode_eq_ok_iff {kind : FieldKind} {field : String} {value : FieldValue} {json : Json} :
    kind.encode field value = .ok json ↔ kind.encode? value = some json := by
  unfold encode
  cases kind.encode? value <;> simp

/-- Decoding succeeds exactly if the JSON has a form that the kind is written in. -/
theorem decode_eq_ok_iff {kind : FieldKind} {field : String} {json : Json} {value : FieldValue} :
    kind.decode field json = .ok value ↔ kind.decode? json = some value := by
  unfold decode
  cases kind.decode? json <;> simp

/-- What a kind encodes is decoded as the value that the kind gives back, with one exception: a
point with a coordinate that is not finite is encoded and cannot be decoded. -/
theorem decode_encode {kind : FieldKind} {field : String} {value : FieldValue} {json : Json}
    (h : kind.encode field value = .ok json) :
    ((∃ result, kind.decode field json = .ok result) ↔ value.isFinite = true) ∧
    (∀ result, kind.decode field json = .ok result → kind.ReadsBack value result) ∧
    (value.isFinite = false → ∃ p, value = .geoPoint p) := by
  simp only [decode_eq_ok_iff]
  rw [encode_eq_ok_iff] at h
  cases hfinite : value.isFinite with
  | true =>
      obtain ⟨result, hresult, hback⟩ := decode?_of_encode? h hfinite
      refine ⟨⟨fun _ => rfl, fun _ => ⟨result, hresult⟩⟩, fun other hother => ?_, by simp⟩
      obtain rfl := Option.some.inj (hother.symm.trans hresult)
      exact hback
  | false =>
      obtain ⟨hpoint, hnone⟩ := decode?_of_not_isFinite h hfinite
      rw [hnone]
      exact ⟨by simp, by simp, fun _ => hpoint⟩

/-- The least positive integer without a double of its own. -/
theorem decode_encode_unevenLong :
    ∃ json result, double.encode "size" (.long 9007199254740993) = .ok json ∧
      double.decode "size" json = .ok result ∧
        double.ReadsBack (.long 9007199254740993) result := by
  have hencode : double.encode "size" (.long 9007199254740993)
    = .ok (.double (.ofInt .binary64 (9007199254740993 : Int64).toInt)) := rfl
  obtain ⟨hreads, hback, -⟩ := decode_encode hencode
  obtain ⟨result, hresult⟩ := hreads.mpr rfl
  exact ⟨_, result, hencode, hresult, hback result hresult⟩

/-- A point whose latitude is not a number is encoded, and its own kind cannot decode that. -/
theorem encode_undecodable_point :
    ∃ json, geoPoint.encode "place" (.geoPoint ⟨.nan .binary64 false, .zero .binary64 false⟩)
      = .ok json ∧ ¬∃ result, geoPoint.decode "place" json = .ok result :=
  ⟨_, rfl, by simp [decode_eq_ok_iff, decode?, GeoPoint.ofJson?_toJson]; decide⟩

/-! ### From documents to values and back -/

/-- A decoded value is of the type that its kind keeps as it is, and its numbers are finite. -/
theorem encodes_of_decode? {kind : FieldKind} {json : Json} {value : FieldValue}
    (hjson : json.InRange) (h : kind.decode? json = some value) :
    (∃ encoded, kind.encode? value = some encoded) ∧ value.isFinite = true ∧
      ∀ result, kind.ReadsBack value result → result = value := by
  cases kind with
  | text | keyword | char | integer | long | boolean | localDate =>
      obtain ⟨part, -, rfl⟩ := Option.map_eq_some_iff.mp h
      exact ⟨⟨_, rfl⟩, rfl, fun result hback => hback⟩
  | double =>
      obtain ⟨x, hx, rfl⟩ := Option.map_eq_some_iff.mp h
      have hfinite := Json.isFinite_of_asDouble? hjson hx
      exact ⟨⟨_, if_pos hfinite⟩, hfinite, fun result hback => hback⟩
  | geoPoint =>
      obtain ⟨p, hp, rfl⟩ := Option.map_eq_some_iff.mp h
      exact ⟨⟨_, rfl⟩, GeoPoint.isFinite_of_ofJson? hjson hp, fun result hback => hback⟩

/-- What is decoded from a document can be encoded, and the encoding is decoded as the same
value. -/
theorem encode_decode {kind : FieldKind} {field : String} {json : Json} {value : FieldValue}
    (hjson : json.InRange) (h : kind.decode field json = .ok value) :
    ∃ encoded, kind.encode field value = .ok encoded ∧ kind.decode field encoded = .ok value := by
  simp only [encode_eq_ok_iff, decode_eq_ok_iff] at h ⊢
  obtain ⟨⟨encoded, hencoded⟩, hfinite, hkeeps⟩ := encodes_of_decode? hjson h
  obtain ⟨result, hresult, hback⟩ := decode?_of_encode? hencoded hfinite
  obtain rfl := hkeeps result hback
  exact ⟨encoded, hencoded, hresult⟩

/-- A date with a long year and white space in it, and a point given as a pair. -/
theorem encode_decode_otherForms :
    let day := Json.string " +12345-1- 2"
    let place := Json.array [.int 48, .double (.zero .binary64 true)]
    ∃ date point, day.InRange ∧ localDate.decode "day" day = .ok date ∧
      (∃ encoded, localDate.encode "day" date = .ok encoded ∧
        localDate.decode "day" encoded = .ok date) ∧
      place.InRange ∧ geoPoint.decode "place" place = .ok point ∧
      ∃ encoded, geoPoint.encode "place" point = .ok encoded ∧
        geoPoint.decode "place" encoded = .ok point := by
  intro day place
  have hday : localDate.decode "day" day
      = .ok (.localDate ⟨12345, 1, 2, by decide, by decide⟩) := rfl
  have hplace : geoPoint.decode "place" place
      = .ok (.geoPoint ⟨.ofInt .binary64 48, .zero .binary64 true⟩) := rfl
  have hdayRange : day.InRange := trivial
  have hplaceRange : place.InRange := by
    refine ⟨⟨by decide, by decide⟩, ?_, trivial⟩
    show (Binary.zero .binary64 true).isFinite = true
    decide
  exact ⟨_, _, hdayRange, hday, encode_decode hdayRange hday, hplaceRange, hplace,
    encode_decode hplaceRange hplace⟩

end FieldKind

end SearchDsl
