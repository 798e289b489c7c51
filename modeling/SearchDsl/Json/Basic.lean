import SearchDsl.Binary.Rounding

/-!
# `SearchDsl.Json.Basic`: JSON values

Numbers are integers or double-precision numbers, and the two are kept apart: `1` is an integer,
`1.0` is not. The members of an object are kept in increasing order of their keys, one per key.
`Json.put` keeps that order, so two objects with the same members are equal.
-/

set_option autoImplicit false

namespace SearchDsl

/-- A JSON value. The integers that occur lie between `-2 ^ 63` and `2 ^ 64 - 1`. -/
inductive Json where
  | null
  | bool (value : Bool)
  | int (value : Int)
  | double (value : Double)
  | string (value : String)
  | array (items : List Json)
  | object (members : List (String × Json))
deriving Inhabited

namespace Json

/-- The members of an object with one of them set: the value of a key that is there is replaced. -/
def put (key : String) (value : Json) : List (String × Json) → List (String × Json)
  | [] => [(key, value)]
  | (k, v) :: rest =>
      if key < k then (key, value) :: (k, v) :: rest
      else if key = k then (key, value) :: rest
      else (k, v) :: put key value rest

/-- The value of a key among the members of an object. -/
def find? (key : String) : List (String × Json) → Option Json
  | [] => none
  | (k, v) :: rest => if key = k then some v else find? key rest

/-- The members that result from setting the given ones in order, so the last one of a key
counts. -/
def collect (members : List (String × Json)) : List (String × Json) :=
  members.foldl (fun done member => put member.1 member.2 done) []

/-- What was set is found. -/
theorem find?_put_self (key : String) (value : Json) (members : List (String × Json)) :
    find? key (put key value members) = some value := by
  induction members with
  | nil => simp [put, find?]
  | cons member rest ih =>
      obtain ⟨k, v⟩ := member
      unfold put
      split
      · simp [find?]
      · split
        · simp [find?]
        · simp_all [find?]

/-- Setting a key leaves the others alone. -/
theorem find?_put_of_ne {key other : String} (h : other ≠ key) (value : Json)
    (members : List (String × Json)) :
    find? other (put key value members) = find? other members := by
  induction members with
  | nil => simp [put, find?, h]
  | cons member rest ih =>
      obtain ⟨k, v⟩ := member
      unfold put
      split
      · simp [find?, h]
      · split
        · simp_all [find?]
        · simp_all [find?]

/-- The member of an object, by its key. Only objects have members. -/
def get? (key : String) : Json → Option Json
  | object members => find? key members
  | _ => none

/-- A member that is left out when it has no value. -/
def member? (key : String) (value : Option Json) : List (String × Json) :=
  (value.map (key, ·)).toList

/-- A single-member object. -/
def single (key : String) (value : Json) : Json := object [(key, value)]

/-- An array of texts. -/
def strings (texts : List String) : Json := array (texts.map string)

/-- A double, which becomes null unless it is finite. -/
def ofDouble (x : Double) : Json := if x.isFinite then double x else null

/-- A single-precision number, written as the double of the same value. -/
def ofSingle (x : Single) : Json := ofDouble (x.convert .binary64)

/-- A text. -/
def asString? : Json → Option String
  | string s => some s
  | _ => none

/-- A truth value. -/
def asBool? : Json → Option Bool
  | bool b => some b
  | _ => none

/-- The items of an array. -/
def asArray? : Json → Option (List Json)
  | array items => some items
  | _ => none

/-- An integer from 0 to `2 ^ 64 - 1`. -/
def asUnsigned? : Json → Option UInt64
  | int n => if 0 ≤ n ∧ n < UInt64.size then some (UInt64.ofNat n.toNat) else none
  | _ => none

/-- An integer from `-2 ^ 63` to `2 ^ 63 - 1`. -/
def asLong? : Json → Option Int64
  | int n =>
      if Int64.minValue.toInt ≤ n ∧ n ≤ Int64.maxValue.toInt then some (Int64.ofInt n) else none
  | _ => none

/-- A number, as the nearest double. -/
def asDouble? : Json → Option Double
  | int n => some (Binary.ofInt .binary64 n)
  | double x => some x
  | _ => none

end Json

end SearchDsl
