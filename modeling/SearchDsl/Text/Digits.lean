/-!
# `SearchDsl.Text.Digits`: runs of decimal digits

Digits are the ten ASCII ones. A run is read off the front of a text as far as it goes and valued in
base ten.
-/

set_option autoImplicit false

namespace SearchDsl.Text

/-- The run of digits that a text begins with, and what follows it. -/
def splitDigits (text : List Char) : List Char × List Char :=
  (text.takeWhile Char.isDigit, text.dropWhile Char.isDigit)

/-- The number that a run of digits stands for. -/
def digitsValue (digits : List Char) : Nat := Nat.ofDigitChars 10 digits 0

/-- Nothing is lost. -/
theorem splitDigits_append (text : List Char) :
    (splitDigits text).1 ++ (splitDigits text).2 = text :=
  List.takeWhile_append_dropWhile

/-- The run holds digits only. -/
theorem isDigit_of_mem_splitDigits {text : List Char} {c : Char}
    (h : c ∈ (splitDigits text).1) : c.isDigit = true := by
  unfold splitDigits at h
  induction text with
  | nil => simp at h
  | cons d text ih =>
      rw [List.takeWhile_cons] at h
      split at h
      · rcases List.mem_cons.mp h with rfl | h
        · assumption
        · exact ih h
      · simp at h

/-- The run goes on to the first character that is no digit. -/
theorem isDigit_head?_splitDigits (text : List Char) :
    ∀ c ∈ (splitDigits text).2.head?, c.isDigit = false := by
  intro c hc
  have hhead := List.head?_dropWhile_not Char.isDigit text
  rw [show (text.dropWhile Char.isDigit).head? = some c from hc] at hhead
  exact hhead

/-- Digits are split off whole where no further digit follows. -/
theorem splitDigits_append_of_isDigit {digits rest : List Char}
    (hdigits : ∀ c ∈ digits, c.isDigit = true) (hrest : ∀ c ∈ rest.head?, c.isDigit = false) :
    splitDigits (digits ++ rest) = (digits, rest) := by
  unfold splitDigits
  rw [List.takeWhile_append_of_pos hdigits, List.dropWhile_append_of_pos hdigits]
  cases rest with
  | nil => simp
  | cons c rest => simp [hrest c rfl]

/-- The value of the decimal digits of a number is the number. -/
theorem digitsValue_toDigits (n : Nat) : digitsValue (Nat.toDigits 10 n) = n :=
  Nat.ofDigitChars_ten_toDigits

end SearchDsl.Text
