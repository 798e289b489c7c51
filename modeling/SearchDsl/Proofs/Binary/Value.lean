import Mathlib.Algebra.Ring.Int.Defs
import Mathlib.Algebra.Ring.Nat
import SearchDsl.Binary.Rounding

/-!
# `SearchDsl.Proofs.Binary.Value`: orders of binary numbers and their exact values

`Binary.totalOrder` looks at bit patterns and `Binary.compareLong` at whole parts. Both are the
order of the signed units, up to two points:

* the two zeros have the same value, so the total order tells them apart by their signs
  (`totalOrder_eq`);
* an infinity or a NaN has no value. The formula for units gives it one that is greater than all
  finite ones, and greater than every 64-bit integer, so the order of the units places it as the
  comparison does (`compareLong_eq`).

The whole part of a number is off by less than one, in either direction. So an integer other than
the whole part lies on the same side of the number as of its whole part (`compare_tdiv_then`).
-/

set_option autoImplicit false

namespace SearchDsl

namespace BinaryFormat

variable (f : BinaryFormat)

/-- The magnitude of a code: subnormal codes count units, and each exponent doubles the step. -/
theorem units_eq (code : Nat) :
    f.units code
      = if code < 2 ^ f.fractionBits then code
        else (2 ^ f.fractionBits + code % 2 ^ f.fractionBits)
          * 2 ^ (code / 2 ^ f.fractionBits - 1) :=
  rfl

/-- The magnitude grows with the code, also past the finite codes. -/
theorem units_strictMono {code other : Nat} (h : code < other) : f.units code < f.units other := by
  have hwidth : 0 < 2 ^ f.fractionBits := Nat.two_pow_pos _
  have hcode := Nat.div_add_mod code (2 ^ f.fractionBits)
  have hother := Nat.div_add_mod other (2 ^ f.fractionBits)
  have hfraction := Nat.mod_lt code hwidth
  have hexponent : code / 2 ^ f.fractionBits ≤ other / 2 ^ f.fractionBits :=
    Nat.div_le_div_right (Nat.le_of_lt h)
  rw [units_eq, units_eq]
  -- A subnormal number is its own code, and a normal one is at least the width of the fraction.
  by_cases hsub : other < 2 ^ f.fractionBits
  · rw [if_pos (Nat.lt_trans h hsub), if_pos hsub]
    exact h
  · have hnormal : 0 < other / 2 ^ f.fractionBits := Nat.div_pos (Nat.le_of_not_lt hsub) hwidth
    rw [if_neg hsub]
    by_cases hcodesub : code < 2 ^ f.fractionBits
    · rw [if_pos hcodesub]
      calc code < 2 ^ f.fractionBits := hcodesub
        _ ≤ 2 ^ f.fractionBits + other % 2 ^ f.fractionBits := Nat.le_add_right _ _
        _ ≤ _ := Nat.le_mul_of_pos_right _ (Nat.two_pow_pos _)
    · rw [if_neg hcodesub]
      have hcodenormal : 0 < code / 2 ^ f.fractionBits :=
        Nat.div_pos (Nat.le_of_not_lt hcodesub) hwidth
      rcases Nat.eq_or_lt_of_le hexponent with heq | hlt
      · -- The same exponent: the fractions decide.
        rw [heq] at hcode ⊢
        exact Nat.mul_lt_mul_of_pos_right (by omega) (Nat.two_pow_pos _)
      · -- A greater exponent at least doubles what the significand counts for.
        have hpow : 2 * 2 ^ (code / 2 ^ f.fractionBits - 1)
            ≤ 2 ^ (other / 2 ^ f.fractionBits - 1) := by
          rw [← Nat.pow_succ']
          exact Nat.pow_le_pow_right (by decide) (by omega)
        calc (2 ^ f.fractionBits + code % 2 ^ f.fractionBits)
                * 2 ^ (code / 2 ^ f.fractionBits - 1)
            < (2 ^ f.fractionBits * 2) * 2 ^ (code / 2 ^ f.fractionBits - 1) :=
              Nat.mul_lt_mul_of_pos_right (by omega) (Nat.two_pow_pos _)
          _ = 2 ^ f.fractionBits * (2 * 2 ^ (code / 2 ^ f.fractionBits - 1)) := Nat.mul_assoc _ _ _
          _ ≤ 2 ^ f.fractionBits * 2 ^ (other / 2 ^ f.fractionBits - 1) :=
              Nat.mul_le_mul_left _ hpow
          _ ≤ _ := Nat.mul_le_mul_right _ (Nat.le_add_right _ _)

/-- The code zero is the number zero. -/
theorem units_zero : f.units 0 = 0 := by
  rw [units_eq, if_pos (Nat.two_pow_pos _)]

/-- Different codes have different magnitudes. -/
theorem units_inj {code other : Nat} (h : f.units code = f.units other) : code = other := by
  rcases Nat.lt_trichotomy code other with hlt | heq | hlt
  · exact absurd h (Nat.ne_of_lt (f.units_strictMono hlt))
  · exact heq
  · exact absurd h.symm (Nat.ne_of_lt (f.units_strictMono hlt))

/-- Magnitudes do not decrease with the code. -/
theorem units_le {code other : Nat} (h : code ≤ other) : f.units code ≤ f.units other := by
  rcases Nat.eq_or_lt_of_le h with heq | hlt
  · exact heq ▸ Nat.le_refl _
  · exact Nat.le_of_lt (f.units_strictMono hlt)

end BinaryFormat

namespace Binary

variable {f : BinaryFormat}

/-- The value of a number is its sign and its magnitude. -/
theorem signedUnits_cases (x : Binary f) :
    (x.negative = true ∧ x.signedUnits = -(f.units x.code : Int)) ∨
      (x.negative = false ∧ x.signedUnits = (f.units x.code : Int)) := by
  unfold signedUnits units
  cases x.negative <;> simp

/-- What is less in value comes earlier in the total order. -/
theorem rank_lt_of_signedUnits_lt {x y : Binary f} (h : x.signedUnits < y.signedUnits) :
    x.rank < y.rank := by
  have hmono : ∀ {c d : Nat}, f.units c < f.units d → c < d := fun {c d} hlt =>
    Nat.lt_of_not_le fun hle => Nat.not_le_of_lt hlt (f.units_le hle)
  -- Between equal signs the codes decide, and a negative rank is below zero. That leaves a positive
  -- number below a negative one, which no value allows.
  unfold rank
  rcases signedUnits_cases x with ⟨hx, hxu⟩ | ⟨hx, hxu⟩ <;>
    rcases signedUnits_cases y with ⟨hy, hyu⟩ | ⟨hy, hyu⟩ <;>
      simp only [hx, hy, if_true, Bool.false_eq_true, if_false]
  · have := hmono (show f.units y.code < f.units x.code by omega)
    omega
  · omega
  · omega
  · have := hmono (show f.units x.code < f.units y.code by omega)
    omega

/-- Numbers of the same value are the same, unless they are zeros. -/
theorem eq_or_zero_of_signedUnits_eq {x y : Binary f} (h : x.signedUnits = y.signedUnits) :
    x = y ∨ (x.code = 0 ∧ y.code = 0) := by
  obtain ⟨xn, xc, hxc⟩ := x
  obtain ⟨yn, yc, hyc⟩ := y
  by_cases hsign : xn = yn
  · subst hsign
    have hcode : xc = yc := by
      apply f.units_inj
      cases xn <;> simp [signedUnits, units] at h <;> omega
    exact Or.inl (by subst hcode; rfl)
  · -- A value with both signs is zero.
    right
    have hzero : f.units xc = f.units 0 ∧ f.units yc = f.units 0 := by
      rw [f.units_zero]
      cases xn <;> cases yn <;> simp [signedUnits, units] at h hsign <;> omega
    exact ⟨f.units_inj hzero.1, f.units_inj hzero.2⟩

/-- The total order is the order of the values, and the signs tell the zeros apart. -/
theorem totalOrder_eq (x y : Binary f) :
    x.totalOrder y = (compare x.signedUnits y.signedUnits).then (compare x.rank y.rank) := by
  unfold totalOrder
  rcases Int.lt_trichotomy x.signedUnits y.signedUnits with hlt | heq | hgt
  · rw [Int.compare_eq_lt.mpr hlt, Int.compare_eq_lt.mpr (rank_lt_of_signedUnits_lt hlt)]
    rfl
  · rw [Int.compare_eq_eq.mpr heq]
    rfl
  · rw [Int.compare_eq_gt.mpr hgt, Int.compare_eq_gt.mpr (rank_lt_of_signedUnits_lt hgt)]
    rfl

/-! ### Integers of 64 bits -/

/-- One double is a positive number of units. -/
theorem one_pos : (0 : Int) < BinaryFormat.binary64.one :=
  Int.natCast_pos.mpr BinaryFormat.binary64.one_pos

/-- The bound of the integers of 64 bits is `2 ^ 63`, counted in units. -/
theorem longBound_eq : (longBound : Int) = 2 ^ 63 * BinaryFormat.binary64.one :=
  Int.natCast_mul _ _

/-- A 64-bit integer is inside the bounds. -/
theorem long_inside (n : Int64) : -longBound ≤ n.toInt * BinaryFormat.binary64.one ∧
    n.toInt * BinaryFormat.binary64.one < longBound := by
  rw [longBound_eq, ← Int.neg_mul]
  exact ⟨Int.mul_le_mul_of_nonneg_right n.le_toInt (Int.le_of_lt one_pos),
    Int.mul_lt_mul_of_pos_right n.toInt_lt one_pos⟩

/-- The bound is less in magnitude than what stands for an infinity. -/
theorem longBound_lt_units_infinity :
    longBound < BinaryFormat.binary64.units BinaryFormat.binary64.infinityCode := by
  decide +kernel

/-- What is no finite number has every 64-bit integer on the side of zero, also in units. -/
theorem compare_long_of_infinityCode_le (n : Int64) {x : Double}
    (h : BinaryFormat.binary64.infinityCode ≤ x.code) :
    compare (n.toInt * BinaryFormat.binary64.one) x.signedUnits
      = if x.negative then .gt else .lt := by
  obtain ⟨hlow, hhigh⟩ := long_inside n
  have hbig := Nat.lt_of_lt_of_le longBound_lt_units_infinity (BinaryFormat.binary64.units_le h)
  rcases signedUnits_cases x with ⟨hx, hxu⟩ | ⟨hx, hxu⟩
  · rw [if_pos hx, hxu]
    exact Int.compare_eq_gt.mpr (by omega)
  · rw [hx, if_neg (by simp), hxu]
    exact Int.compare_eq_lt.mpr (by omega)

/-- In the total order a NaN is beyond all numbers that are none, on the side of its sign. -/
theorem totalOrder_of_isNaN {x y : Binary f} (hx : x.isNaN = true) (hy : y.isNaN = false) :
    y.totalOrder x = if x.negative then .gt else .lt := by
  simp only [isNaN, decide_eq_true_eq, decide_eq_false_iff_not] at hx hy
  have hcode : y.code < x.code := by omega
  unfold totalOrder rank
  cases x.negative with
  | true =>
      refine Int.compare_eq_gt.mpr ?_
      cases y.negative <;> simp <;> omega
  | false =>
      refine Int.compare_eq_lt.mpr ?_
      cases y.negative <;> simp <;> omega

/-- An integer is never read as a NaN. -/
theorem isNaN_ofInt (f : BinaryFormat) (n : Int) : (ofInt f n).isNaN = false := by
  rw [isNaN, decide_eq_false_iff_not]
  exact Nat.not_lt_of_le (Nat.min_le_right _ _)

/-- To compare an integer with a quotient, compare it with the quotient without its fraction, and if
these are equal compare the latter with the quotient. -/
theorem compare_tdiv_then {k : Int} (hk : 0 < k) (n u : Int) :
    (compare n (u.tdiv k)).then (compare (u.tdiv k * k) u) = compare (n * k) u := by
  have hsplit : u.tdiv k * k + u.tmod k = u := Int.tdiv_mul_add_tmod u k
  have hlow : -k < u.tmod k := Int.lt_tmod_of_pos u hk
  have hhigh : u.tmod k < k := Int.tmod_lt_of_pos u hk
  rcases Int.lt_trichotomy n (u.tdiv k) with hlt | rfl | hgt
  · -- One step below the whole part is below the number, whatever its fraction.
    have hstep : (n + 1) * k ≤ u.tdiv k * k := Int.mul_le_mul_of_nonneg_right hlt (Int.le_of_lt hk)
    rw [Int.add_mul, Int.one_mul] at hstep
    rw [Int.compare_eq_lt.mpr hlt, Int.compare_eq_lt.mpr (show n * k < u by omega)]
    rfl
  · rw [Int.compare_eq_eq.mpr rfl]
    rfl
  · have hstep : (u.tdiv k + 1) * k ≤ n * k := Int.mul_le_mul_of_nonneg_right hgt (Int.le_of_lt hk)
    rw [Int.add_mul, Int.one_mul] at hstep
    rw [Int.compare_eq_gt.mpr hgt, Int.compare_eq_gt.mpr (show u < n * k by omega)]
    rfl

/-- The whole part of a number between the bounds has 64 bits. -/
theorem toInt_ofInt_wholePart {x : Double} (hlow : -longBound ≤ x.signedUnits)
    (hhigh : x.signedUnits < longBound) : (Int64.ofInt x.wholePart).toInt = x.wholePart := by
  rw [longBound_eq] at hlow hhigh
  apply Int64.toInt_ofInt_of_le
  · rw [← Int.neg_mul] at hlow
    exact Int.le_tdiv_of_mul_le one_pos hlow
  · -- Cut off towards zero, a negative number may become zero and no more than that.
    rcases Int.le_total 0 x.signedUnits with hnonneg | hneg
    · rw [wholePart, Int.tdiv_eq_ediv_of_nonneg hnonneg]
      exact Int.ediv_lt_of_lt_mul one_pos hhigh
    · have hcut := Int.tdiv_le_tdiv one_pos hneg
      rw [Int.zero_tdiv] at hcut
      exact Int.lt_of_le_of_lt hcut (by decide)

/-- The comparison of a 64-bit integer with a double is the order of the values, also if the double
is infinite or a NaN. -/
theorem compareLong_eq (n : Int64) (x : Double) :
    compareLong n x = compare (n.toInt * BinaryFormat.binary64.one) x.signedUnits := by
  obtain ⟨hlow, hhigh⟩ := long_inside n
  unfold compareLong
  split
  · rename_i hnan
    have hcode : BinaryFormat.binary64.infinityCode ≤ x.code :=
      Nat.le_of_lt (by simpa [isNaN] using hnan)
    rw [totalOrder_of_isNaN hnan (isNaN_ofInt _ _), compare_long_of_infinityCode_le n hcode]
  · split
    · exact (Int.compare_eq_lt.mpr (by omega)).symm
    · split
      · exact (Int.compare_eq_gt.mpr (by omega)).symm
      · rw [toInt_ofInt_wholePart (by omega) (by omega)]
        exact compare_tdiv_then one_pos _ _

end Binary

end SearchDsl
