import SearchDsl.Error.Basic

/-!
# `SearchDsl.Version.Parser`: reading versions

A version is a major number, optionally followed by a minor and then a micro number, each after a
point, and optionally by a hyphen and a qualifier of letters, digits and points. White space around
it does not count. Numbers have 32 bits.
-/

set_option autoImplicit false

namespace SearchDsl.Version

/-- A number at the front of a text, and what follows it. -/
def component? (text : List Char) : Option (UInt32 × List Char) :=
  let (digits, rest) := Text.splitDigits text
  if digits ≠ [] ∧ Text.digitsValue digits < UInt32.size then
    some (UInt32.ofNat (Text.digitsValue digits), rest)
  else none

/-- A point and a number at the front of a text, if the text begins with a point. -/
def pointed? : List Char → Option (Option UInt32 × List Char)
  | '.' :: rest => (component? rest).map fun (n, rest) => (some n, rest)
  | text => some (none, text)

/-- Whether a character may stand in a qualifier. -/
def isQualifierChar (c : Char) : Bool :=
  c.isDigit || c.isUpper || c.isLower || c == '.'

/-- The qualifier that a text consists of, if any. -/
def qualifier? : List Char → Option (Option String)
  | [] => some none
  | '-' :: rest =>
      if rest ≠ [] ∧ rest.all isQualifierChar then some (some (String.ofList rest)) else none
  | _ => none

/-- The version written by a text without white space around it. -/
def ofCharacters? (text : List Char) : Option Version := do
  let (major, rest) ← component? text
  let (minor, rest) ← pointed? rest
  let (micro, rest) ← if minor.isSome then pointed? rest else some (none, rest)
  let qualifier ← qualifier? rest
  pure ⟨major, minor, micro, qualifier⟩

/-- Reads a version. -/
def parse (text : String) : Except Error Version :=
  let trimmed := Text.trimBlanks text.toList
  match ofCharacters? trimmed with
  | some version => .ok version
  | none => .error (.configuration (.invalidVersion (String.ofList trimmed)))

end SearchDsl.Version
