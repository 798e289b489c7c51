import Mathlib.Algebra.Ring.Nat
import SearchDsl.Calendar.Date

/-!
# `SearchDsl.Proofs.Calendar.Date`: dates are read back as they were written

The text of a date is a number, a hyphen, a number, a hyphen and a number. A reader takes the digits
of a number up to the hyphen, or up to the width that it allows. So a number is read back if its
digits are no more than that and no digit follows (`number?_padded`).

The years decide how much that is. From 0 to 9999 a year has four digits, which is what an unsigned
year may have. Any other year has a sign in front, and a signed year may be as long as it likes.
`parse?_text` puts the three numbers together.
-/

set_option autoImplicit false

namespace SearchDsl.Date

/-! ### Padded numbers -/

/-- Padding with zeros leaves only digits. -/
theorem isDigit_of_mem_padded {width n : Nat} :
    ∀ c ∈ padded width n, c.isDigit = true := by
  intro c hc
  rcases List.mem_append.mp hc with hzero | hdigit
  · rw [List.eq_of_mem_replicate hzero]
    rfl
  · exact Nat.isDigit_of_mem_toDigits (by decide) (by decide) hdigit

/-- Zeros in front do not count. -/
theorem digitsValue_padded (width n : Nat) : Text.digitsValue (padded width n) = n := by
  show Nat.ofDigitChars 10 (List.replicate _ '0' ++ Nat.toDigits 10 n) 0 = n
  rw [Nat.ofDigitChars_append, Nat.ofDigitChars_replicate_zero, Nat.mul_zero]
  exact Text.digitsValue_toDigits n

/-- A padded number has at least one digit. -/
theorem padded_ne_nil (width n : Nat) : padded width n ≠ [] := by
  intro h
  have hdigits : 0 < (Nat.toDigits 10 n).length := Nat.length_toDigits_pos
  rw [(List.append_eq_nil_iff.mp h).2] at hdigits
  simp at hdigits

/-- A number that fits has exactly the width. -/
theorem length_padded {width n : Nat} (hwidth : 0 < width) (h : n < 10 ^ width) :
    (padded width n).length = width := by
  have hdigits := (Nat.length_toDigits_le_iff (b := 10) (by decide) hwidth).mpr h
  show (List.replicate (width - (Nat.toDigits 10 n).length) '0' ++ Nat.toDigits 10 n).length = width
  rw [List.length_append, List.length_replicate]
  omega

/-- A padded number is read back where no further digit follows. -/
theorem number?_padded {most width n : Nat} {rest : List Char}
    (hmost : (padded width n).length ≤ most) (hrest : ∀ c ∈ rest.head?, c.isDigit = false) :
    number? most (padded width n ++ rest) = some (n, rest) := by
  have hrun : (Text.splitDigits (padded width n ++ rest)).1 = padded width n := by
    rw [Text.splitDigits_append_of_isDigit isDigit_of_mem_padded hrest]
  unfold number?
  simp only [hrun, List.take_of_length_le hmost, if_neg (padded_ne_nil width n),
    digitsValue_padded, List.drop_left]

/-- There is no white space in front of a number. -/
theorem skipBlanks_padded (width n : Nat) (rest : List Char) :
    Text.skipBlanks (padded width n ++ rest) = padded width n ++ rest := by
  obtain ⟨c, digits, hdigits⟩ := List.exists_cons_of_ne_nil (padded_ne_nil width n)
  have hdigit : c.isDigit = true := isDigit_of_mem_padded c (hdigits ▸ List.mem_cons_self)
  rw [hdigits, List.cons_append]
  exact Text.skipBlanks_cons_of_not_isBlank (Text.isBlank_of_isDigit hdigit)

/-! ### The parts of a date -/

/-- The second half of a date: a hyphen and a number of two digits. -/
theorem separator?_padded (n : Nat) (rest : List Char) :
    separator? ('-' :: (padded 2 n ++ rest)) = some (padded 2 n ++ rest) := by
  rw [separator?, skipBlanks_padded]

/-- Only the numbers up to twelve are months. -/
theorem month_le (d : Date) : d.month ≤ 12 := by
  by_cases hmonth : d.month ≤ 12
  · exact hmonth
  · have hnone : daysInMonth d.year d.month = 0 := by
      unfold daysInMonth
      split <;> omega
    have hday := d.day_mem
    omega

/-- No month has more than 31 days. -/
theorem day_le (d : Date) : d.day ≤ 31 := by
  refine Nat.le_trans d.day_mem.2 ?_
  unfold daysInMonth
  grind

/-- A year is read back in front of a hyphen. -/
theorem year?_characters (d : Date) (rest : List Char) :
    let sign := if d.year < 0 then ['-'] else if 9999 < d.year then ['+'] else []
    let text := sign ++ padded 4 d.year.natAbs ++ '-' :: rest
    year? (Text.skipBlanks text) = some (d.year, '-' :: rest) := by
  have hrest : ∀ c ∈ ('-' :: rest).head?, c.isDigit = false := by
    intro c hc
    obtain rfl := Option.some.inj hc
    rfl
  -- A signed year may have as many digits as there are characters.
  have hsigned : number? (padded 4 d.year.natAbs ++ '-' :: rest).length
      (padded 4 d.year.natAbs ++ '-' :: rest) = some (d.year.natAbs, '-' :: rest) :=
    number?_padded (by rw [List.length_append]; omega) hrest
  by_cases hnegative : d.year < 0
  · have hblank : Text.isBlank '-' = false := by decide
    simp only [if_pos hnegative, List.cons_append, List.nil_append]
    rw [Text.skipBlanks_cons_of_not_isBlank hblank, year?, hsigned]
    show some (-(d.year.natAbs : Int), '-' :: rest) = some (d.year, '-' :: rest)
    rw [show -(d.year.natAbs : Int) = d.year by omega]
  by_cases hlong : 9999 < d.year
  · have hblank : Text.isBlank '+' = false := by decide
    simp only [if_neg hnegative, if_pos hlong, List.cons_append, List.nil_append]
    rw [Text.skipBlanks_cons_of_not_isBlank hblank, year?, hsigned]
    show some ((d.year.natAbs : Int), '-' :: rest) = some (d.year, '-' :: rest)
    rw [show (d.year.natAbs : Int) = d.year by omega]
  · -- An unsigned year has four digits, the first of which is no sign.
    simp only [if_neg hnegative, if_neg hlong, List.nil_append]
    rw [skipBlanks_padded]
    have hfour : number? 4 (padded 4 d.year.natAbs ++ '-' :: rest)
        = some (d.year.natAbs, '-' :: rest) :=
      number?_padded (Nat.le_of_eq (length_padded (by decide) (by omega))) hrest
    obtain ⟨c, digits, hdigits⟩ := List.exists_cons_of_ne_nil (padded_ne_nil 4 d.year.natAbs)
    have hdigit : c.isDigit = true := isDigit_of_mem_padded c (hdigits ▸ List.mem_cons_self)
    have hminus : c ≠ '-' := by
      rintro rfl
      simp at hdigit
    have hplus : c ≠ '+' := by
      rintro rfl
      simp at hdigit
    rw [hdigits, List.cons_append] at hfour ⊢
    unfold year?
    split
    · rename_i heq
      exact absurd (List.cons.inj heq).1 hminus
    · rename_i heq
      exact absurd (List.cons.inj heq).1 hplus
    · rw [hfour]
      show some ((d.year.natAbs : Int), '-' :: rest) = some (d.year, '-' :: rest)
      rw [show (d.year.natAbs : Int) = d.year by omega]

/-- The text of a date is read as the date. -/
theorem parse?_text (d : Date) : parse? d.text = some d := by
  have hmonth : number? 2 (padded 2 d.month ++ '-' :: padded 2 d.day)
      = some (d.month, '-' :: padded 2 d.day) := by
    have := month_le d
    refine number?_padded (Nat.le_of_eq (length_padded (by decide) (by omega))) ?_
    intro c hc
    obtain rfl := Option.some.inj hc
    rfl
  have hday : number? 2 (padded 2 d.day ++ []) = some (d.day, []) := by
    have := day_le d
    exact number?_padded (Nat.le_of_eq (length_padded (by decide) (by omega))) (by simp)
  have hyear := year?_characters d (padded 2 d.month ++ '-' :: padded 2 d.day)
  rw [parse?, text, String.toList_ofList, ofCharacters?, characters]
  simp only [List.append_assoc, List.cons_append] at hyear ⊢
  rw [hyear]
  simp only [Option.bind_eq_bind, Option.bind_some, separator?_padded, hmonth]
  rw [← List.append_nil (padded 2 d.day), separator?_padded, Option.bind_some, hday]
  simp [ofParts?_self]

end SearchDsl.Date
