import SearchDsl.Binary.Basic

/-!
# `SearchDsl.Binary.Rounding`: the nearest number of a format, and the order of its numbers

Ratios, integers, decimals and numbers of another format are rounded to the nearest number of a
format, a tie going to the even code. What lies beyond the greatest finite number by half a step or
more becomes infinite.

The total order ranks every bit pattern: negative NaNs, negative infinity, negative numbers, the two
zeros with the negative one first, positive numbers, positive infinity, positive NaNs. The
comparison with an integer does not round the integer: the whole part of the number decides, and
then its fraction. There the two zeros are equal.
-/

set_option autoImplicit false

namespace SearchDsl

/-- `num / den` as a whole number, to the nearest, ties to the even one. -/
def divNearest (num den : Nat) : Nat :=
  let low := num / den
  let twice := 2 * (num % den)
  if twice < den ∨ (twice = den ∧ low % 2 = 0) then low else low + 1

/-- Rounding to nearest does not go below the floor. -/
theorem le_divNearest (num den : Nat) : num / den ≤ divNearest num den := by
  unfold divNearest
  dsimp only
  split <;> omega

/-- Rounding to nearest goes at most one above the floor. -/
theorem divNearest_le (num den : Nat) : divNearest num den ≤ num / den + 1 := by
  unfold divNearest
  dsimp only
  split <;> omega

namespace BinaryFormat

/-- The code of the number nearest to `num / den` units. The exponent is that of the whole part, so
the significand has all the bits of the format unless the number is subnormal. A significand that is
rounded up to the next power of two carries into the exponent by itself. -/
def nearestCode (f : BinaryFormat) (num den : Nat) : Nat :=
  let shift := (num / den).log2 - f.fractionBits
  min (shift * Nat.pow 2 f.fractionBits + divNearest num (den * Nat.pow 2 shift)) f.infinityCode

/-- What a quotient rounds to is a magnitude of the format. -/
theorem nearestCode_lt (f : BinaryFormat) (num den : Nat) :
    f.nearestCode num den < f.codeBound :=
  Nat.lt_of_le_of_lt (Nat.min_le_right _ _) f.infinityCode_lt

end BinaryFormat

namespace Binary

/-- The number nearest to the ratio `num / den`. -/
def ofRatio (f : BinaryFormat) (negative : Bool) (num den : Nat) : Binary f :=
  ⟨negative, f.nearestCode (num * f.one) den, f.nearestCode_lt _ _⟩

/-- The number nearest to an integer. -/
def ofInt (f : BinaryFormat) (n : Int) : Binary f :=
  ofRatio f (n < 0) n.natAbs 1

/-- The number nearest to `digits × 10 ^ scale`. A decimal with far too great or too small a scale
is recognised by its number of digits before any power of ten is computed. -/
def ofScientific (f : BinaryFormat) (negative : Bool) (digits : Nat) (scale : Int) : Binary f :=
  let top : Int := (Nat.toDigits 10 digits).length + scale
  let reach : Int := Nat.pow 2 f.exponentBits
  if digits = 0 ∨ top < -reach then zero f negative
  else if reach < top then infinity f negative
  else if 0 ≤ scale then ofRatio f negative (digits * Nat.pow 10 scale.toNat) 1
  else ofRatio f negative digits (Nat.pow 10 (-scale).toNat)

/-- The nearest number of another format. Infinities stay infinite and a NaN keeps its sign. -/
def convert {f : BinaryFormat} (g : BinaryFormat) (x : Binary f) : Binary g :=
  if x.isNaN then nan g x.negative
  else if x.isInfinite then infinity g x.negative
  else ofRatio g x.negative x.units f.one

/-! ### Order -/

section Order

variable {f : BinaryFormat}

/-- The position of a number in the total order of its format. -/
def rank (x : Binary f) : Int := if x.negative then -(x.code + 1) else x.code

/-- The total order of a format. -/
def totalOrder (x y : Binary f) : Ordering := compare x.rank y.rank

/-- A number without its fraction, cut off towards zero. -/
def wholePart (x : Binary f) : Int := x.signedUnits.tdiv f.one

/-- The least double above all integers of 64 bits, in units. -/
def longBound : Nat := Nat.pow 2 63 * BinaryFormat.binary64.one

/-- A 64-bit integer compared with a double, without rounding the integer. The formula for units
puts the infinities beyond the bound. A NaN lies outside all integers, on the side of its sign. -/
def compareLong (n : Int64) (x : Double) : Ordering :=
  if x.isNaN then (ofInt .binary64 n.toInt).totalOrder x
  else if longBound ≤ x.signedUnits then .lt
  else if x.signedUnits < -longBound then .gt
  else
    -- The whole part is in the range of the integer, and equal ones leave it to the fraction.
    (compare n.toInt (Int64.ofInt x.wholePart).toInt).then
      (compare (x.wholePart * BinaryFormat.binary64.one) x.signedUnits)

end Order

end Binary

end SearchDsl
