import SearchDsl.Json.Record

/-!
# `SearchDsl.Version.Basic`: versions of Elasticsearch

A version may be partial: without a minor number it stands for all releases of its major number.
-/

set_option autoImplicit false

namespace SearchDsl

/-- A version such as `7`, `6.8` or `8.0.0-beta1`. -/
structure Version where
  major : UInt32
  minor : Option UInt32 := none
  micro : Option UInt32 := none
  qualifier : Option String := none
deriving DecidableEq, Repr

namespace Version

/-- Whether the version is `major.minor` or later. A missing minor number counts as zero. -/
def isAtLeast (v : Version) (major minor : UInt32) : Bool :=
  major < v.major || (major == v.major && minor ≤ v.minor.getD 0)

/-- The characters of a version. Without a minor number no micro number is written. -/
def characters (v : Version) : List Char :=
  let number (n : UInt32) : List Char := Nat.toDigits 10 n.toNat
  let micro := match v.micro with
    | some micro => '.' :: number micro
    | none => []
  let minor := match v.minor with
    | some minor => '.' :: number minor ++ micro
    | none => []
  let qualifier := match v.qualifier with
    | some qualifier => '-' :: qualifier.toList
    | none => []
  number v.major ++ minor ++ qualifier

/-- The text of a version. -/
def text (v : Version) : String := String.ofList v.characters

/-- A number from 0 to `2 ^ 32 - 1`. -/
def number? : Json → Option UInt32
  | .int n => if 0 ≤ n ∧ n < UInt32.size then some (UInt32.ofNat n.toNat) else none
  | _ => none

/-- Reads a version from a record of its parts. In an array none of the parts may be left out. -/
def ofJson? (json : Json) : Option Version :=
  match json.fields? ["major", "minor", "micro", "qualifier"] 4 with
  | some [major, minor, micro, qualifier] => do
      let major ← Json.required number? major
      let minor ← Json.optional number? minor
      let micro ← Json.optional number? micro
      let qualifier ← Json.optional Json.asString? qualifier
      pure ⟨major, minor, micro, qualifier⟩
  | _ => none

end Version

end SearchDsl
