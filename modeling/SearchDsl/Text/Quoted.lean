import SearchDsl.Text.Printable

/-!
# `SearchDsl.Text.Quoted`: texts and characters as they are shown in messages

A quoted text stands between double quotes, a quoted character between single ones. The delimiter
itself and the backslash are escaped, as are line breaks, tabs and the null character. Every other
character that is not printable is written by its hexadecimal code point.
-/

set_option autoImplicit false

namespace SearchDsl.Text

/-- The code point of a character in lower-case hexadecimal, between braces. -/
def codePointEscape (c : Char) : String :=
  "\\u\x7b" ++ String.ofList (Nat.toDigits 16 c.toNat) ++ "\x7d"

/-- One character inside a quoted text that ends at `delimiter`. -/
def escape (delimiter c : Char) : String :=
  if c = delimiter then "\\" ++ c.toString
  else if c = '\\' then "\\\\"
  else if c = '\n' then "\\n"
  else if c = '\r' then "\\r"
  else if c = '\t' then "\\t"
  else if c.toNat = 0 then "\\0"
  else if isPrintable c then c.toString
  else codePointEscape c

/-- A text between double quotes. -/
def quoted (text : String) : String :=
  "\"" ++ String.join (text.toList.map (escape '"')) ++ "\""

/-- A character between single quotes. -/
def quotedChar (c : Char) : String :=
  "'" ++ escape '\'' c ++ "'"

/-- A list of quoted texts between square brackets. -/
def quotedList (texts : List String) : String :=
  "[" ++ ", ".intercalate (texts.map quoted) ++ "]"

end SearchDsl.Text
