/-!
# `SearchDsl.Binary.Basic`: binary floating-point numbers as plain data

A number of an interchange format is a sign and a magnitude code: the biased exponent followed by
the fraction, read as one natural number. Codes grow with the magnitude, infinity comes after all
finite codes, and the codes above it are the NaNs.

Every finite number is a whole multiple of the least positive number of its format, so its exact
magnitude is a natural number, `Binary.units`, and all arithmetic here is exact.
-/

set_option autoImplicit false

namespace SearchDsl

/-- A binary interchange format: the widths of its exponent and of its fraction. -/
structure BinaryFormat where
  exponentBits : Nat
  fractionBits : Nat
deriving DecidableEq, Repr

namespace BinaryFormat

/-- The double-precision format. -/
def binary64 : BinaryFormat := ⟨11, 52⟩

/-- The single-precision format. -/
def binary32 : BinaryFormat := ⟨8, 23⟩

/-- All magnitude codes of a format lie below this bound. -/
def codeBound (f : BinaryFormat) : Nat := Nat.pow 2 (f.exponentBits + f.fractionBits)

/-- The code of infinity: an exponent of ones and a fraction of zeros. -/
def infinityCode (f : BinaryFormat) : Nat :=
  (Nat.pow 2 f.exponentBits - 1) * Nat.pow 2 f.fractionBits

/-- The code of the quiet NaN without payload. -/
def quietCode (f : BinaryFormat) : Nat := f.codeBound - Nat.pow 2 (f.fractionBits - 1)

/-- The number one, as a multiple of the least positive number. -/
def one (f : BinaryFormat) : Nat :=
  Nat.pow 2 (Nat.pow 2 (f.exponentBits - 1) + f.fractionBits - 2)

/-- The magnitude of a finite code, as a multiple of the least positive number. The formula goes on
past the finite codes, where it is what the next number would be in a wider range. -/
def units (f : BinaryFormat) (code : Nat) : Nat :=
  let width := Nat.pow 2 f.fractionBits
  if code < width then code
  else (width + code % width) * Nat.pow 2 (code / width - 1)

/-- There is a code in every format. -/
theorem codeBound_pos (f : BinaryFormat) : 0 < f.codeBound := Nat.two_pow_pos _

/-- Infinity is one of the magnitudes of a format. -/
theorem infinityCode_lt (f : BinaryFormat) : f.infinityCode < f.codeBound := by
  unfold infinityCode codeBound
  simp only [Nat.pow_eq, Nat.pow_add]
  exact Nat.mul_lt_mul_of_pos_right (Nat.sub_lt (Nat.two_pow_pos _) (by decide)) (Nat.two_pow_pos _)

/-- The quiet NaN is a number of the format. -/
theorem quietCode_lt (f : BinaryFormat) : f.quietCode < f.codeBound :=
  Nat.sub_lt f.codeBound_pos (Nat.two_pow_pos _)

/-- One is not rounded to zero units: it is a power of two of them. -/
theorem one_pos (f : BinaryFormat) : 0 < f.one := Nat.two_pow_pos _

end BinaryFormat

/-- A number of a binary format: signed zeros, finite numbers, infinities and NaNs. -/
structure Binary (f : BinaryFormat) where
  negative : Bool
  /-- Biased exponent and fraction, read as one number. -/
  code : Nat
  code_lt : code < f.codeBound
deriving DecidableEq

/-- A double-precision number. -/
abbrev Double := Binary .binary64

/-- A single-precision number. -/
abbrev Single := Binary .binary32

namespace Binary

variable {f : BinaryFormat}

/-- Zero, with either sign. -/
def zero (f : BinaryFormat) (negative : Bool) : Binary f := ⟨negative, 0, f.codeBound_pos⟩

/-- Infinity, with either sign. -/
def infinity (f : BinaryFormat) (negative : Bool) : Binary f :=
  ⟨negative, f.infinityCode, f.infinityCode_lt⟩

/-- The quiet NaN, with either sign. -/
def nan (f : BinaryFormat) (negative : Bool) : Binary f := ⟨negative, f.quietCode, f.quietCode_lt⟩

/-- Neither infinite nor NaN. -/
def isFinite (x : Binary f) : Bool := x.code < f.infinityCode

/-- Whether a number is one of the two infinities. -/
def isInfinite (x : Binary f) : Bool := x.code == f.infinityCode

/-- Whether a number is not a number: the codes above infinity. -/
def isNaN (x : Binary f) : Bool := f.infinityCode < x.code

/-- The magnitude, as a multiple of the least positive number. -/
def units (x : Binary f) : Nat := f.units x.code

/-- The signed value of a finite number, as a multiple of the least positive number. -/
def signedUnits (x : Binary f) : Int := if x.negative then -x.units else x.units

instance : Inhabited (Binary f) := ⟨zero f false⟩

end Binary

end SearchDsl
