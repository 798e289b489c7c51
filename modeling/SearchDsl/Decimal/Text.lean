import SearchDsl.Decimal.Shortest

/-!
# `SearchDsl.Decimal.Text`: the text of a floating-point number

A number is written with its shortest digits, in positional notation while the exponent of its first
digit lies in a certain range, and in scientific notation outside of it. Positional notation has at
least one digit after the point. What differs between uses is collected in a `NumberStyle`.
-/

set_option autoImplicit false

namespace SearchDsl

/-- The choices of one way of writing numbers. -/
structure NumberStyle where
  /-- The least exponent of the first digit that is written positionally. -/
  leastPlain : Int
  /-- The greatest exponent of the first digit that is written positionally. -/
  greatestPlain : Int
  /-- What stands before a positive exponent. -/
  positiveSign : String
  /-- Which of two equally near shortest decimals is written. -/
  tie : DecimalTie

/-- Numbers in messages: `0.0001` up to `1000000000000000.0`, then `1e16`. -/
def NumberStyle.message : NumberStyle := ⟨-4, 15, "", .upward⟩

/-- Numbers in documents: `0.00001` up to `1000000000000000.0`, then `1e+16`. -/
def NumberStyle.document : NumberStyle := ⟨-5, 15, "+", .toEven⟩

namespace Decimal

/-- Digits with a point after the first of them, which has the exponent `leading`. -/
def positional (digits : List Char) (leading : Int) : List Char :=
  if leading < 0 then
    '0' :: '.' :: (List.replicate ((-leading).toNat - 1) '0' ++ digits)
  else
    let whole := leading.toNat + 1
    if digits.length ≤ whole then
      digits ++ List.replicate (whole - digits.length) '0' ++ ['.', '0']
    else digits.take whole ++ '.' :: digits.drop whole

/-- Digits with a point after the first one, and the exponent of that digit. -/
def scientific (positiveSign : String) (digits : List Char) (leading : Int) : List Char :=
  let mantissa := match digits with
    | [] => []
    | [d] => [d]
    | d :: rest => d :: '.' :: rest
  let sign := if leading < 0 then "-" else positiveSign
  mantissa ++ 'e' :: sign.toList ++ Nat.toDigits 10 leading.natAbs

/-- A positive decimal, written in the given style. -/
def text (style : NumberStyle) (d : Decimal) : List Char :=
  let digits := Nat.toDigits 10 d.coefficient
  let leading : Int := d.exponent + digits.length - 1
  if style.leastPlain ≤ leading ∧ leading ≤ style.greatestPlain then positional digits leading
  else scientific style.positiveSign digits leading

end Decimal

/-- The text of a number in the given style. -/
def Binary.text {f : BinaryFormat} (style : NumberStyle) (x : Binary f) : String :=
  if x.isNaN then "NaN"
  else
    let magnitude :=
      if x.isInfinite then "inf".toList
      else if x.code = 0 then "0.0".toList
      else (Decimal.shortest f style.tie x.code).text style
    String.ofList (if x.negative then '-' :: magnitude else magnitude)

end SearchDsl
