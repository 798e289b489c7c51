import Mathlib.Algebra.Order.Field.Rat
import Mathlib.Order.Compare
import Mathlib.Order.WithBot
import Mathlib.Tactic.FieldSimp
import Mathlib.Tactic.NormNum
import SearchDsl.Proofs.Binary.Rounding

/-!
# `SearchDsl.Proofs.Binary.Exact`: what binary numbers stand for

The arithmetic of this library counts in units of the least positive number. Here the same numbers
are described as the formats define them: a significand with a leading bit that is not stored, times
a power of two that the exponent field gives (`BinaryFormat.magnitude`). The infinities are greater
and less than all rational numbers, and a NaN stands for no number at all (`Binary.value?`).

* `compareLong_eq_compare_value`: an integer of 64 bits and a double compare as what they stand for.
* `IsNearest.le_of_le`, `IsNearest.ge_of_ge`, `IsNearest.le_of_lt`: rounding an integer to the
  nearest number takes it past no number of the format, and keeps integers in order.
-/

set_option autoImplicit false

namespace SearchDsl

/-- The rational numbers with an infinity at either end. -/
abbrev Extended := WithBot (WithTop ℚ)

namespace Extended

/-- A rational number among the extended ones. -/
def ofRat (q : ℚ) : Extended := ((q : WithTop ℚ) : WithBot (WithTop ℚ))

/-- Ratios compare as the rational numbers that they stand for. -/
theorem compare_ofRat (p q : ℚ) : compare (ofRat p) (ofRat q) = compare p q := by
  have hlt : ∀ p q : ℚ, ofRat p < ofRat q ↔ p < q := fun p q =>
    WithBot.coe_lt_coe.trans WithTop.coe_lt_coe
  rcases lt_trichotomy p q with h | rfl | h
  · rw [compare_lt_iff_lt.mpr h, compare_lt_iff_lt.mpr ((hlt p q).mpr h)]
  · rw [compare_eq_iff_eq.mpr rfl, compare_eq_iff_eq.mpr rfl]
  · rw [compare_gt_iff_gt.mpr h, compare_gt_iff_gt.mpr ((hlt q p).mpr h)]

end Extended

namespace BinaryFormat

/-- What the exponent field of the number one holds. -/
def bias (f : BinaryFormat) : ℤ := 2 ^ (f.exponentBits - 1) - 1

/-- The magnitude of a finite code, by its exponent and its fraction. The numbers with a zero in the
exponent field are the subnormal ones. They have the exponent of the least normal numbers and no
leading bit. -/
def magnitude (f : BinaryFormat) (code : Nat) : ℚ :=
  let exponent := code / 2 ^ f.fractionBits
  let fraction : ℚ := (code % 2 ^ f.fractionBits : Nat) / 2 ^ f.fractionBits
  if exponent = 0 then fraction * 2 ^ (1 - f.bias)
  else (1 + fraction) * 2 ^ ((exponent : ℤ) - f.bias)

variable {f : BinaryFormat}

/-- One, as a power of two of the least positive number of the format. -/
theorem one_eq_zpow (hbits : 0 < f.fractionBits) :
    (f.one : ℚ) = 2 ^ (f.bias + f.fractionBits - 1) := by
  have hhalf : 0 < 2 ^ (f.exponentBits - 1) := Nat.two_pow_pos _
  have hexponent : ((2 ^ (f.exponentBits - 1) + f.fractionBits - 2 : Nat) : ℤ)
      = f.bias + f.fractionBits - 1 := by
    rw [bias]
    push_cast [Nat.cast_sub (show 2 ≤ 2 ^ (f.exponentBits - 1) + f.fractionBits by omega)]
    ring
  rw [← hexponent, zpow_natCast]
  exact Nat.cast_pow 2 _

/-- The two descriptions of a magnitude agree. -/
theorem magnitude_mul_one (hbits : 0 < f.fractionBits) (code : Nat) :
    f.magnitude code * f.one = f.units code := by
  have htwo : (2 : ℚ) ≠ 0 := two_ne_zero
  have hwidth : (2 : ℚ) ^ f.fractionBits ≠ 0 := pow_ne_zero _ htwo
  rw [one_eq_zpow hbits, magnitude, units_eq]
  by_cases hsub : code < 2 ^ f.fractionBits
  · have hscale : (2 : ℚ) ^ (1 - f.bias) * 2 ^ (f.bias + f.fractionBits - 1)
        = 2 ^ f.fractionBits := by
      rw [← zpow_add₀ htwo, ← zpow_natCast]
      congr 1
      ring
    rw [if_pos (Nat.div_eq_of_lt hsub), if_pos hsub, Nat.mod_eq_of_lt hsub, mul_assoc, hscale,
      div_mul_cancel₀ _ hwidth]
  · have hexponent : code / 2 ^ f.fractionBits ≠ 0 :=
      Nat.ne_of_gt (Nat.div_pos (Nat.le_of_not_lt hsub) (Nat.two_pow_pos _))
    have hscale : (2 : ℚ) ^ (((code / 2 ^ f.fractionBits : Nat) : ℤ) - f.bias)
          * 2 ^ (f.bias + f.fractionBits - 1)
        = 2 ^ f.fractionBits * 2 ^ (code / 2 ^ f.fractionBits - 1) := by
      rw [← zpow_add₀ htwo, ← zpow_natCast, ← zpow_natCast, ← zpow_add₀ htwo,
        Nat.cast_sub (Nat.one_le_iff_ne_zero.mpr hexponent)]
      congr 1
      push_cast
      ring
    rw [if_neg hexponent, if_neg hsub, mul_assoc, hscale]
    push_cast
    field_simp

end BinaryFormat

namespace Binary

variable {f : BinaryFormat}

/-- The rational number that a finite number stands for. -/
def ratio (x : Binary f) : ℚ := if x.negative then -f.magnitude x.code else f.magnitude x.code

/-- What a number stands for, unless it is a NaN. -/
def value? (x : Binary f) : Option Extended :=
  if x.isNaN then none
  else if x.isInfinite then some (if x.negative then ⊥ else ⊤)
  else some (.ofRat x.ratio)

/-- The value of a number, counted in units. -/
theorem ratio_mul_one (hbits : 0 < f.fractionBits) (x : Binary f) :
    x.ratio * f.one = x.signedUnits := by
  have hmagnitude := f.magnitude_mul_one hbits x.code
  unfold ratio signedUnits units
  cases x.negative with
  | true =>
      rw [if_pos rfl, if_pos rfl, neg_mul, hmagnitude]
      push_cast
      rfl
  | false => exact hmagnitude

/-- Every number that is not a NaN stands for something. -/
theorem exists_value? {x : Binary f} (h : x.isNaN = false) : ∃ v, x.value? = some v := by
  unfold value?
  rw [h]
  split
  · contradiction
  · split
    · exact ⟨_, rfl⟩
    · exact ⟨_, rfl⟩

/-- Numbers compare as the units that they count. -/
theorem compare_of_mul_one (f : BinaryFormat) {p q : ℚ} {m n : ℤ} (hp : p * f.one = m)
    (hq : q * f.one = n) : compare m n = compare p q := by
  have hone : (0 : ℚ) < f.one := Nat.cast_pos.mpr f.one_pos
  have hlt : ∀ {p q : ℚ} {m n : ℤ}, p * f.one = m → q * f.one = n → m < n → p < q :=
    fun hp hq h => lt_of_mul_lt_mul_right (by rwa [hp, hq, Int.cast_lt]) hone.le
  rcases lt_trichotomy m n with h | h | h
  · rw [Int.compare_eq_lt.mpr h, compare_lt_iff_lt.mpr (hlt hp hq h)]
  · have heq : p = q := mul_right_cancel₀ hone.ne' (by rw [hp, hq, h])
    rw [Int.compare_eq_eq.mpr h, compare_eq_iff_eq.mpr heq]
  · rw [Int.compare_eq_gt.mpr h, compare_gt_iff_gt.mpr (hlt hq hp h)]

/-- An integer of 64 bits and a double compare as what they stand for. -/
theorem compareLong_eq_compare_value (n : Int64) {x : Double} {v : Extended}
    (h : x.value? = some v) : compareLong n x = compare (Extended.ofRat n.toInt) v := by
  rw [compareLong_eq]
  unfold value? at h
  split at h
  · contradiction
  · split at h
    · -- An infinity is beyond all integers, and so is what its units stand for.
      rename_i hinfinite
      obtain rfl := Option.some.inj h
      have hcode : BinaryFormat.binary64.infinityCode ≤ x.code :=
        Nat.le_of_eq (beq_iff_eq.mp hinfinite).symm
      rw [compare_long_of_infinityCode_le n hcode]
      cases x.negative with
      | true => exact (compare_gt_iff_gt.mpr (WithBot.bot_lt_coe _)).symm
      | false =>
          exact (compare_lt_iff_lt.mpr (WithBot.coe_lt_coe.mpr (WithTop.coe_lt_top _))).symm
    · obtain rfl := Option.some.inj h
      rw [Extended.compare_ofRat]
      exact compare_of_mul_one .binary64 (by push_cast; rfl) (ratio_mul_one (by decide) x)

/-! ### Rounding keeps the order -/

section Order

variable {m n : ℤ} {x y z : Binary f}

/-- What is rounded is not taken up past a number of the format. -/
theorem IsNearest.le_of_le (hx : IsNearest n x) (hz : z.isFinite = true)
    (h : n * f.one ≤ z.signedUnits) : x.signedUnits ≤ z.signedUnits := by
  have := hx.nearest z hz
  omega

/-- What is rounded is not taken down past a number of the format. -/
theorem IsNearest.ge_of_ge (hx : IsNearest n x) (hz : z.isFinite = true)
    (h : z.signedUnits ≤ n * f.one) : z.signedUnits ≤ x.signedUnits := by
  have := hx.nearest z hz
  omega

/-- The lesser of two integers is not rounded to the greater number. -/
theorem IsNearest.le_of_lt (hx : IsNearest m x) (hy : IsNearest n y) (h : m < n) :
    x.signedUnits ≤ y.signedUnits := by
  have hone : (0 : ℤ) < f.one := Int.natCast_pos.mpr f.one_pos
  have hless : m * f.one < n * f.one := Int.mul_lt_mul_of_pos_right h hone
  have hxy := hx.nearest y hy.finite
  have hyx := hy.nearest x hx.finite
  omega

end Order

end Binary

end SearchDsl
