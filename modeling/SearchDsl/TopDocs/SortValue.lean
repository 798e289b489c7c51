import SearchDsl.Json.Printer

/-!
# `SearchDsl.TopDocs.SortValue`: what hits are sorted by

Each hit of a sorted search comes with one value per sort criterion. Long integers and doubles are
compared by their exact values, doubles among each other by their total order. Numbers come before
texts. The criteria that rank hits say whether the values are read, which end comes first and where
missing values go.
-/

set_option autoImplicit false

namespace SearchDsl

/-- A sort value of a hit. -/
inductive SortValue where
  /-- The document has no value for the sort field. -/
  | missing
  | long (value : Int64)
  | double (value : Double)
  | text (value : String)
deriving DecidableEq

namespace SortValue

/-- A sort value as it stands in a response. Truth values count as zero and one, integers beyond 64
signed bits become doubles, and arrays and objects become their texts. -/
def ofJson : Json → SortValue
  | .null => missing
  | .bool b => long (if b then 1 else 0)
  | .int n =>
      match (Json.int n).asLong? with
      | some value => long value
      | none => double (.ofInt .binary64 n)
  | .double x => double x
  | .string s => text s
  | json => text json.compact

/-- Whether a value is missing. -/
def isMissing : SortValue → Bool
  | missing => true
  | _ => false

/-- Numbers come before texts. -/
def rank : SortValue → Nat
  | missing => 0
  | long _ | double _ => 1
  | text _ => 2

/-- The order of two values that are not missing. -/
def order : SortValue → SortValue → Ordering
  | long a, long b => compare a.toInt b.toInt
  | long a, double b => Binary.compareLong a b
  | double a, long b => (Binary.compareLong b a).swap
  | double a, double b => a.totalOrder b
  | text a, text b => compare a b
  | a, b => compare a.rank b.rank

end SortValue

/-- How one criterion compares hits. -/
inductive RankingKey where
  /-- By score, the highest first unless reversed. -/
  | score (reverse : Bool)
  /-- By the sort value at the position of the criterion, the lowest first unless reversed. Missing
  values come last or first in either case. -/
  | field (reverse missingLast : Bool)
  /-- By position in the shard. -/
  | doc
deriving DecidableEq, Repr

namespace RankingKey

/-- Whether the criterion reads sort values. -/
def readsValues : RankingKey → Bool
  | field .. => true
  | _ => false

end RankingKey

end SearchDsl
