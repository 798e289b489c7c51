import SearchDsl.Text.Blank
import SearchDsl.Text.Digits

/-!
# `SearchDsl.Calendar.Date`: calendar dates and their text

Dates belong to the proleptic Gregorian calendar, in the years from -262143 to 262142. A date is
written as year, month and day with hyphens between them. Years from 0 to 9999 have four digits and
no sign, other years have a sign and at least four digits.

Reading is more lenient than writing: white space may precede each number, months and days may have
one digit, and a signed year any number of digits.
-/

set_option autoImplicit false

namespace SearchDsl

/-- Whether a year has a 29th of February. -/
def isLeapYear (year : Int) : Bool :=
  year % 4 == 0 && (year % 100 != 0 || year % 400 == 0)

/-- The number of days of a month, none for what is not a month. -/
def daysInMonth (year : Int) (month : Nat) : Nat :=
  match month with
  | 1 | 3 | 5 | 7 | 8 | 10 | 12 => 31
  | 4 | 6 | 9 | 11 => 30
  | 2 => if isLeapYear year then 29 else 28
  | _ => 0

/-- A date of the calendar. -/
structure Date where
  year : Int
  month : Nat
  day : Nat
  year_mem : -262143 ≤ year ∧ year ≤ 262142
  day_mem : 1 ≤ day ∧ day ≤ daysInMonth year month
deriving DecidableEq

namespace Date

/-- The date with these parts, if there is one. -/
def ofParts? (year : Int) (month day : Nat) : Option Date :=
  if hy : -262143 ≤ year ∧ year ≤ 262142 then
    if hd : 1 ≤ day ∧ day ≤ daysInMonth year month then some ⟨year, month, day, hy, hd⟩
    else none
  else none

/-- A date is found again by its year, month and day. -/
theorem ofParts?_self (d : Date) : ofParts? d.year d.month d.day = some d := by
  simp [ofParts?, d.year_mem, d.day_mem]

/-- A number with zeros in front up to the given width. -/
def padded (width n : Nat) : List Char :=
  let digits := Nat.toDigits 10 n
  List.replicate (width - digits.length) '0' ++ digits

/-- The characters of a date. -/
def characters (d : Date) : List Char :=
  let sign := if d.year < 0 then ['-'] else if 9999 < d.year then ['+'] else []
  sign ++ padded 4 d.year.natAbs ++ '-' :: padded 2 d.month ++ '-' :: padded 2 d.day

/-- The text of a date. -/
def text (d : Date) : String := String.ofList d.characters

/-- A number of at most `width` digits at the front of a text, and what follows it. -/
def number? (width : Nat) (text : List Char) : Option (Nat × List Char) :=
  let digits := (Text.splitDigits text).1.take width
  if digits = [] then none
  else some (Text.digitsValue digits, text.drop digits.length)

/-- A year at the front of a text: a sign and any number of digits, or up to four digits. -/
def year? : List Char → Option (Int × List Char)
  | '-' :: rest => (number? rest.length rest).map fun (n, rest) => (-(n : Int), rest)
  | '+' :: rest => (number? rest.length rest).map fun (n, rest) => ((n : Int), rest)
  | text => (number? 4 text).map fun (n, rest) => ((n : Int), rest)

/-- The hyphen at the front of a text, and what follows it and the white space after it. -/
def separator? : List Char → Option (List Char)
  | '-' :: rest => some (Text.skipBlanks rest)
  | _ => none

/-- Reads a date. -/
def ofCharacters? (text : List Char) : Option Date := do
  let (year, rest) ← year? (Text.skipBlanks text)
  let (month, rest) ← number? 2 (← separator? rest)
  let (day, rest) ← number? 2 (← separator? rest)
  if rest = [] then ofParts? year month day else none

/-- Reads a date. -/
def parse? (text : String) : Option Date := ofCharacters? text.toList

end Date

end SearchDsl
