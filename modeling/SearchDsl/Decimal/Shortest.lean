import SearchDsl.Binary.Basic

/-!
# `SearchDsl.Decimal.Shortest`: the fewest digits that read back

A decimal reads back as a binary number when it lies between the midpoints to the two neighbouring
numbers, or on one of them if the code of the number is even. Grids of one, two, … digits are tried
in turn, and on each only the two points next to the number can be the nearest. Of two points that
read back the nearer one is taken. Seventeen digits always suffice for double precision.
-/

set_option autoImplicit false

namespace SearchDsl

/-- The positive decimal `coefficient × 10 ^ exponent`. -/
structure Decimal where
  coefficient : Nat
  exponent : Int
deriving DecidableEq, Repr

/-- Which of two equally near decimals is taken. -/
inductive DecimalTie where
  | toEven
  | upward
deriving DecidableEq, Repr

namespace Decimal

/-- The number of decimal digits. -/
def digitCount (n : Nat) : Nat := (Nat.toDigits 10 n).length

/-- The exponent of the first digit of `units / one`. Below one it is read off the reciprocal. -/
def leadingExponent (units one : Nat) : Int :=
  if one ≤ units then (digitCount (units / one) : Int) - 1
  else -(digitCount ((one - 1) / units) : Int)

/-- Whether `point / scale` units reads back as the number with this code. -/
def readsBack (f : BinaryFormat) (code point scale : Nat) : Bool :=
  let low := (f.units (code - 1) + f.units code) * scale
  let high := (f.units code + f.units (code + 1)) * scale
  if code % 2 = 0 then low ≤ 2 * point && 2 * point ≤ high
  else low < 2 * point && 2 * point < high

/-- The nearest decimal with this many digits that reads back as the number with this code. -/
def atDigits? (f : BinaryFormat) (tie : DecimalTie) (code : Nat) (digits : Nat) :
    Option Decimal :=
  let exponent : Int := leadingExponent (f.units code) f.one - digits + 1
  -- One step of the grid is `step / scale` units.
  let step := f.one * Nat.pow 10 exponent.toNat
  let scale := Nat.pow 10 (-exponent).toNat
  let low := f.units code * scale / step
  let twice := 2 * (f.units code * scale % step)
  let preferLow := twice < step || (twice == step && tie == .toEven && low % 2 == 0)
  let lowReads := readsBack f code (low * step) scale
  let highReads := readsBack f code ((low + 1) * step) scale
  if lowReads && (preferLow || !highReads) then some ⟨low, exponent⟩
  else if highReads then some ⟨low + 1, exponent⟩
  else none

/-- Moves the zeros at the end of the coefficient into the exponent. -/
def stripZeros (d : Decimal) : Decimal :=
  if d.coefficient = 0 ∨ d.coefficient % 10 ≠ 0 then d
  else stripZeros ⟨d.coefficient / 10, d.exponent + 1⟩
termination_by d.coefficient
decreasing_by omega

/-- The shortest decimal that reads back as the positive finite number with this code, and of those
the nearest. -/
def shortest (f : BinaryFormat) (tie : DecimalTie) (code : Nat) : Decimal :=
  let found := (List.range 17).findSome? fun k => atDigits? f tie code (k + 1)
  stripZeros (found.getD ⟨f.units code / f.one, 0⟩)

end Decimal

end SearchDsl
