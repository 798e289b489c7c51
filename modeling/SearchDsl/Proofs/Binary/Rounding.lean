import Mathlib.Tactic.Ring
import SearchDsl.Binary.Rounding
import SearchDsl.Proofs.Binary.Value

/-!
# `SearchDsl.Proofs.Binary.Rounding`: rounding takes the nearest number

`BinaryFormat.nearestCode` rounds a quotient in two steps. The whole part of the quotient says how
many bits are cut off (`shift`), and what is left is rounded to a whole number (`significand`). Both
together are a code, unless they are past the finite ones. The theorems:

* `units_nearestCode`: the code stands for the significand, shifted back. This also holds where the
  significand is rounded up to a power of two and carries into the exponent.
* `nearestCode_nearest` and `nearestCode_even_of_tie`: no other magnitude of the format is nearer to
  the quotient, and of two that are equally near the even code is taken. A magnitude either is a
  multiple of the step of the significand, and then it competes in the rounding to a whole number,
  or it is smaller than all that are (`multiple_or_farther`).
* `nearestCode_lt_infinityCode`: what is far enough below infinity stays finite.
* `Binary.isNearest_ofInt`: so the number for an integer is the nearest one. For 64-bit integers it
  is always finite (`Binary.isFinite_ofInt`).
-/

set_option autoImplicit false

namespace SearchDsl

/-! ### Whole numbers nearest to a quotient -/

section Quotients

variable {num den : Nat}

/-- No multiple of the denominator is nearer to the numerator than the one that rounding takes. -/
theorem divNearest_nearest (hden : 0 < den) (k : Nat) :
    ((divNearest num den * den : Nat) - num : Int).natAbs
      ≤ ((k * den : Nat) - num : Int).natAbs := by
  have hdiv := Nat.div_add_mod' num den
  have hmod := Nat.mod_lt num hden
  have hnext : (num / den + 1) * den = num / den * den + den := Nat.succ_mul _ _
  have hsides : k * den ≤ num / den * den ∨ (num / den + 1) * den ≤ k * den := by
    rcases Nat.lt_or_ge (num / den) k with hlt | hge
    · exact .inr (Nat.mul_le_mul_right den hlt)
    · exact .inl (Nat.mul_le_mul_right den hge)
  unfold divNearest
  dsimp only
  split <;> omega

/-- Of two multiples that are equally near rounding takes the even one. -/
theorem divNearest_even_of_tie (hden : 0 < den) {k : Nat} (hk : k ≠ divNearest num den)
    (htie : ((k * den : Nat) - num : Int).natAbs
      = ((divNearest num den * den : Nat) - num : Int).natAbs) :
    divNearest num den % 2 = 0 := by
  have hdiv := Nat.div_add_mod' num den
  have hmod := Nat.mod_lt num hden
  have hnext : (num / den + 1) * den = num / den * den + den := Nat.succ_mul _ _
  -- Only the two multiples around the numerator can be as near as the one that is taken.
  have hsides : (k + 1) * den ≤ num / den * den ∨ k = num / den ∨ k = num / den + 1 ∨
      (num / den + 1 + 1) * den ≤ k * den := by
    rcases Nat.lt_trichotomy k (num / den) with hlt | heq | hgt
    · exact .inl (Nat.mul_le_mul_right den hlt)
    · exact .inr (.inl heq)
    · rcases Nat.eq_or_lt_of_le hgt with heq | hlt
      · exact .inr (.inr (.inl heq.symm))
      · exact .inr (.inr (.inr (Nat.mul_le_mul_right den hlt)))
  rw [Nat.succ_mul, Nat.succ_mul] at hsides
  revert hk htie
  unfold divNearest
  dsimp only
  rcases hsides with hbelow | rfl | rfl | habove <;> split <;> omega

end Quotients

namespace BinaryFormat

variable (f : BinaryFormat)

/-! ### Magnitudes by exponent and significand -/

/-- A significand in the range of exponents where it counts steps of `2 ^ shift`. Twice the least
one is the least significand of the next range. -/
theorem units_significand {shift significand : Nat}
    (hlow : shift = 0 ∨ 2 ^ f.fractionBits ≤ significand)
    (hhigh : significand ≤ 2 * 2 ^ f.fractionBits) :
    f.units (shift * 2 ^ f.fractionBits + significand) = significand * 2 ^ shift := by
  have hwidth : 0 < 2 ^ f.fractionBits := Nat.two_pow_pos _
  rw [units_eq]
  by_cases hsub : significand < 2 ^ f.fractionBits
  · -- Only subnormal numbers have a significand of fewer bits.
    obtain rfl : shift = 0 := by omega
    rw [Nat.zero_mul, Nat.zero_add, if_pos hsub, Nat.pow_zero, Nat.mul_one]
  · have hnormal : ¬shift * 2 ^ f.fractionBits + significand < 2 ^ f.fractionBits := by omega
    obtain ⟨rest, rfl⟩ := Nat.exists_eq_add_of_le (Nat.le_of_not_lt hsub)
    have hcode : shift * 2 ^ f.fractionBits + (2 ^ f.fractionBits + rest)
        = rest + (shift + 1) * 2 ^ f.fractionBits := by ring
    rw [if_neg hnormal, hcode, Nat.add_mul_mod_self_right, Nat.add_mul_div_right _ _ hwidth]
    rcases Nat.lt_or_ge rest (2 ^ f.fractionBits) with hrest | hrest
    · rw [Nat.mod_eq_of_lt hrest, Nat.div_eq_of_lt hrest, Nat.zero_add, Nat.add_sub_cancel]
    · -- The significand has carried into the exponent.
      obtain rfl : rest = 2 ^ f.fractionBits := by omega
      rw [Nat.mod_self, Nat.div_self hwidth, Nat.add_comm 1, Nat.add_sub_cancel]
      ring

/-- From a range of exponents on, all magnitudes are multiples of its step. -/
theorem two_pow_dvd_units {shift code : Nat} (h : (shift + 1) * 2 ^ f.fractionBits ≤ code) :
    2 ^ shift ∣ f.units code := by
  have hwidth : 0 < 2 ^ f.fractionBits := Nat.two_pow_pos _
  have hexponent : shift + 1 ≤ code / 2 ^ f.fractionBits :=
    (Nat.le_div_iff_mul_le hwidth).mpr h
  have hnormal : ¬code < 2 ^ f.fractionBits := by
    intro hlt
    rw [Nat.div_eq_of_lt hlt] at hexponent
    omega
  rw [units_eq, if_neg hnormal]
  exact Nat.dvd_mul_left_of_dvd (Nat.pow_dvd_pow 2 (by omega)) _

/-! ### The parts of the nearest code -/

/-- How many bits of the whole part of a quotient a significand has no room for. -/
def shift (num den : Nat) : Nat := (num / den).log2 - f.fractionBits

/-- The significand that a quotient is rounded to. -/
def significand (num den : Nat) : Nat := divNearest num (den * 2 ^ f.shift num den)

/-- The code of the nearest number by the shift and the significand that are computed for it. -/
theorem nearestCode_eq (num den : Nat) : f.nearestCode num den
    = min (f.shift num den * 2 ^ f.fractionBits + f.significand num den) f.infinityCode := rfl

variable {f} {num den : Nat}

/-- A quotient that is shifted has enough bits for the significand of a normal number. -/
theorem le_of_shift_ne_zero (h : f.shift num den ≠ 0) :
    2 ^ f.fractionBits * (den * 2 ^ f.shift num den) ≤ num := by
  have hlog : (num / den).log2 = f.fractionBits + f.shift num den := by
    unfold shift at h ⊢
    omega
  have hne : num / den ≠ 0 := by
    intro hzero
    rw [hzero, Nat.log2_zero] at hlog
    omega
  calc 2 ^ f.fractionBits * (den * 2 ^ f.shift num den)
      = 2 ^ (num / den).log2 * den := by rw [hlog, Nat.pow_add]; ring
    _ ≤ num / den * den := Nat.mul_le_mul_right den (Nat.log2_self_le hne)
    _ ≤ num := Nat.div_mul_le_self num den

/-- Above the subnormal numbers a significand has its leading bit. -/
theorem le_significand (hden : 0 < den) (h : f.shift num den ≠ 0) :
    2 ^ f.fractionBits ≤ f.significand num den := by
  have hstep : 0 < den * 2 ^ f.shift num den := Nat.mul_pos hden (Nat.two_pow_pos _)
  have hfloor := (Nat.le_div_iff_mul_le hstep).mpr (le_of_shift_ne_zero h)
  exact Nat.le_trans hfloor (le_divNearest _ _)

/-- A significand has at most the bits of the format, or it was rounded up to the next power of
two. -/
theorem significand_le (num den : Nat) : f.significand num den ≤ 2 * 2 ^ f.fractionBits := by
  have hquotient : num / den < 2 ^ f.shift num den * 2 ^ (f.fractionBits + 1) := by
    rw [← Nat.pow_add]
    refine Nat.lt_of_lt_of_le Nat.lt_log2_self (Nat.pow_le_pow_right (by decide) ?_)
    unfold shift
    omega
  have hfloor : num / (den * 2 ^ f.shift num den) < 2 ^ (f.fractionBits + 1) := by
    rw [← Nat.div_div_eq_div_mul]
    exact Nat.div_lt_of_lt_mul hquotient
  have hround := divNearest_le num (den * 2 ^ f.shift num den)
  rw [Nat.pow_succ] at hfloor
  show divNearest num (den * 2 ^ f.shift num den) ≤ _
  omega

/-- The code of a quotient in range is made of the two parts. -/
theorem nearestCode_of_finite (h : f.nearestCode num den < f.infinityCode) :
    f.nearestCode num den = f.shift num den * 2 ^ f.fractionBits + f.significand num den := by
  rw [nearestCode_eq] at h ⊢
  omega

/-- The magnitude that a quotient in range is rounded to. -/
theorem units_nearestCode (hden : 0 < den) (h : f.nearestCode num den < f.infinityCode) :
    f.units (f.nearestCode num den) = f.significand num den * 2 ^ f.shift num den := by
  rw [nearestCode_of_finite h]
  refine units_significand f ?_ (significand_le num den)
  by_cases hshift : f.shift num den = 0
  · exact .inl hshift
  · exact .inr (le_significand hden hshift)

/-! ### Nearest magnitudes -/

/-- How far a magnitude is from a quotient, as a multiple of what the denominator divides. -/
def distance (num den units : Nat) : Nat := ((units * den : Nat) - num : Int).natAbs

/-- A multiple of the step of the significand is as far as its number of steps. -/
theorem distance_mul_two_pow (k : Nat) : distance num den (k * 2 ^ f.shift num den)
    = ((k * (den * 2 ^ f.shift num den) : Nat) - num : Int).natAbs := by
  have hcomm : k * 2 ^ f.shift num den * den = k * (den * 2 ^ f.shift num den) := by ring
  rw [distance, hcomm]

/-- The significand is nearest among all multiples of its step. -/
theorem distance_significand_le (hden : 0 < den) (k : Nat) :
    distance num den (f.significand num den * 2 ^ f.shift num den)
      ≤ distance num den (k * 2 ^ f.shift num den) := by
  rw [distance_mul_two_pow, distance_mul_two_pow]
  exact divNearest_nearest (Nat.mul_pos hden (Nat.two_pow_pos _)) k

/-- A magnitude is a multiple of the step of the significand, or it is farther from the quotient
than the significand. -/
theorem multiple_or_farther (num : Nat) (hden : 0 < den) (code : Nat) :
    (∃ k, f.units code = k * 2 ^ f.shift num den) ∨
      distance num den (f.significand num den * 2 ^ f.shift num den)
        < distance num den (f.units code) := by
  by_cases hshift : f.shift num den = 0
  · refine .inl ⟨f.units code, ?_⟩
    rw [hshift, Nat.pow_zero, Nat.mul_one]
  rcases Nat.lt_or_ge code ((f.shift num den + 1) * 2 ^ f.fractionBits) with hlt | hge
  · -- The least significand with all bits lies between the magnitude and the quotient.
    right
    have hleast : f.units (f.shift num den * 2 ^ f.fractionBits + 2 ^ f.fractionBits)
        = 2 ^ f.fractionBits * 2 ^ f.shift num den :=
      units_significand f (.inr (Nat.le_refl _)) (Nat.le_mul_of_pos_left _ (by decide))
    rw [← Nat.succ_mul] at hleast
    have hunits : f.units code < 2 ^ f.fractionBits * 2 ^ f.shift num den :=
      hleast ▸ f.units_strictMono hlt
    have hbelow := Nat.mul_lt_mul_of_pos_right hunits hden
    have hbetween := le_of_shift_ne_zero hshift
    refine Nat.lt_of_le_of_lt (distance_significand_le hden (2 ^ f.fractionBits)) ?_
    rw [distance_mul_two_pow, distance]
    have hcomm : 2 ^ f.fractionBits * 2 ^ f.shift num den * den
        = 2 ^ f.fractionBits * (den * 2 ^ f.shift num den) := by ring
    omega
  · obtain ⟨k, hk⟩ := two_pow_dvd_units f hge
    exact .inl ⟨k, by rw [hk, Nat.mul_comm]⟩

/-- No magnitude is nearer to a quotient in range than the one that it is rounded to. -/
theorem nearestCode_nearest (hden : 0 < den) (h : f.nearestCode num den < f.infinityCode)
    (code : Nat) :
    distance num den (f.units (f.nearestCode num den)) ≤ distance num den (f.units code) := by
  rw [units_nearestCode hden h]
  rcases multiple_or_farther num hden code with ⟨k, hk⟩ | hfarther
  · rw [hk]
    exact distance_significand_le hden k
  · exact Nat.le_of_lt hfarther

/-- Of two magnitudes that are equally near the one with the even code is taken. -/
theorem nearestCode_even_of_tie (hbits : 0 < f.fractionBits) (hden : 0 < den)
    (h : f.nearestCode num den < f.infinityCode) {code : Nat} (hcode : code ≠ f.nearestCode num den)
    (htie : distance num den (f.units code)
      = distance num den (f.units (f.nearestCode num den))) :
    f.nearestCode num den % 2 = 0 := by
  have hne : f.units code ≠ f.units (f.nearestCode num den) := fun heq => hcode (f.units_inj heq)
  rw [units_nearestCode hden h] at hne htie
  have heven : f.significand num den % 2 = 0 := by
    rcases multiple_or_farther num hden code with ⟨k, hk⟩ | hfarther
    · rw [hk] at hne htie
      rw [distance_mul_two_pow, distance_mul_two_pow] at htie
      refine divNearest_even_of_tie (Nat.mul_pos hden (Nat.two_pow_pos _)) (fun heq => hne ?_) htie
      rw [heq]
      rfl
    · omega
  -- The other part of the code counts whole widths of the fraction, which are even.
  obtain ⟨bits, hwidth⟩ := Nat.exists_eq_succ_of_ne_zero (Nat.ne_of_gt hbits)
  rw [nearestCode_of_finite h, hwidth, Nat.pow_succ, ← Nat.mul_assoc]
  omega

/-- A quotient whose whole part has few enough bits is in range. -/
theorem nearestCode_lt_infinityCode (bits : Nat) (h : num / den < 2 ^ bits)
    (hexponent : 3 < 2 ^ f.exponentBits) (hbits : bits + 3 ≤ 2 ^ f.exponentBits + f.fractionBits) :
    f.nearestCode num den < f.infinityCode := by
  have hshift : f.shift num den + 3 < 2 ^ f.exponentBits := by
    unfold shift
    by_cases hzero : num / den = 0
    · rw [hzero, Nat.log2_zero]
      omega
    · have hlog := (Nat.log2_lt hzero).mpr h
      omega
  have hcode : f.shift num den * 2 ^ f.fractionBits + f.significand num den
      ≤ (f.shift num den + 2) * 2 ^ f.fractionBits := by
    rw [Nat.add_mul]
    exact Nat.add_le_add_left (significand_le num den) _
  have hinfinity : (f.shift num den + 2) * 2 ^ f.fractionBits < f.infinityCode := by
    show _ < (2 ^ f.exponentBits - 1) * 2 ^ f.fractionBits
    exact Nat.mul_lt_mul_of_pos_right (by omega) (Nat.two_pow_pos _)
  rw [nearestCode_eq]
  omega

end BinaryFormat

namespace Binary

variable {f : BinaryFormat}

/-! ### Numbers nearest to an integer -/

/-- A finite number that no other finite number of its format is nearer to an integer than, and of
two that are equally near the one with the even code. -/
structure IsNearest (n : Int) (x : Binary f) : Prop where
  finite : x.isFinite = true
  nearest : ∀ y : Binary f, y.isFinite = true →
    (x.signedUnits - n * f.one).natAbs ≤ (y.signedUnits - n * f.one).natAbs
  even : ∀ y : Binary f, y.isFinite = true → y.signedUnits ≠ x.signedUnits →
    (y.signedUnits - n * f.one).natAbs = (x.signedUnits - n * f.one).natAbs → x.code % 2 = 0

/-- Finite numbers are those with codes below infinity. -/
theorem isFinite_iff {x : Binary f} : x.isFinite = true ↔ x.code < f.infinityCode := by
  simp [isFinite]

/-- An integer in units has the magnitude of the integer and its sign. -/
theorem mul_one_eq (n : Int) : n * f.one
    = if n < 0 then -((n.natAbs * f.one : Nat) : Int) else ((n.natAbs * f.one : Nat) : Int) := by
  rw [Int.natCast_mul]
  split
  · rw [← Int.neg_mul, show -(n.natAbs : Int) = n by omega]
  · rw [show (n.natAbs : Int) = n by omega]

/-- A number on the side of an integer is as far from it as their magnitudes are apart, and a number
on the other side as both magnitudes together. -/
theorem natAbs_signedUnits_sub (n : Int) (y : Binary f) :
    (y.signedUnits - n * f.one).natAbs
      = if y.negative = decide (n < 0) then BinaryFormat.distance (n.natAbs * f.one) 1 y.units
        else y.units + n.natAbs * f.one := by
  rw [mul_one_eq, BinaryFormat.distance, Nat.mul_one]
  generalize n.natAbs * f.one = magnitude
  unfold signedUnits
  by_cases hn : n < 0
  · rw [if_pos hn, decide_eq_true hn]
    cases y.negative with
    | true =>
        show (-(y.units : Int) - -magnitude).natAbs = (y.units - magnitude : Int).natAbs
        omega
    | false =>
        show ((y.units : Int) - -magnitude).natAbs = y.units + magnitude
        omega
  · rw [if_neg hn, decide_eq_false hn]
    cases y.negative with
    | true =>
        show (-(y.units : Int) - magnitude).natAbs = y.units + magnitude
        omega
    | false => rfl

/-- The number for an integer is the nearest one, if it is finite. -/
theorem isNearest_ofInt (hbits : 0 < f.fractionBits) {n : Int} (h : (ofInt f n).isFinite = true) :
    IsNearest n (ofInt f n) := by
  have hcode : f.nearestCode (n.natAbs * f.one) 1 < f.infinityCode := isFinite_iff.mp h
  have hx : ((ofInt f n).signedUnits - n * f.one).natAbs
      = BinaryFormat.distance (n.natAbs * f.one) 1 (f.units (ofInt f n).code) := by
    rw [natAbs_signedUnits_sub]
    exact if_pos rfl
  have hnearest : ∀ code, BinaryFormat.distance (n.natAbs * f.one) 1 (f.units (ofInt f n).code)
      ≤ BinaryFormat.distance (n.natAbs * f.one) 1 (f.units code) :=
    BinaryFormat.nearestCode_nearest Nat.one_pos hcode
  have htied : ∀ code, code ≠ (ofInt f n).code →
      BinaryFormat.distance (n.natAbs * f.one) 1 (f.units code)
        = BinaryFormat.distance (n.natAbs * f.one) 1 (f.units (ofInt f n).code) →
      (ofInt f n).code % 2 = 0 :=
    fun code => BinaryFormat.nearestCode_even_of_tie hbits Nat.one_pos hcode
  -- A number on the other side of the integer is no nearer than zero.
  have hzero : BinaryFormat.distance (n.natAbs * f.one) 1 (f.units 0) = n.natAbs * f.one := by
    rw [f.units_zero]
    unfold BinaryFormat.distance
    omega
  refine ⟨h, fun y _ => ?_, fun y _ hne htie => ?_⟩
  · rw [hx, natAbs_signedUnits_sub]
    split
    · exact hnearest y.code
    · have := hnearest 0
      omega
  · rw [hx, natAbs_signedUnits_sub] at htie
    split at htie
    · rename_i hside
      refine htied y.code (fun hsame => hne ?_) htie
      rw [signedUnits, signedUnits, units, units, hside, hsame]
      rfl
    · by_cases hcodeZero : (ofInt f n).code = 0
      · rw [hcodeZero]
      · have := hnearest 0
        exact htied 0 (Ne.symm hcodeZero) (by omega)

/-! ### Numbers in range -/

/-- An integer of at most 64 bits, signed or not, is in the range of double precision. -/
theorem isFinite_ofInt {n : Int} (h : n.natAbs ≤ 2 ^ 64) :
    (ofInt .binary64 n).isFinite = true := by
  rw [isFinite_iff]
  show BinaryFormat.binary64.nearestCode (n.natAbs * BinaryFormat.binary64.one) 1 < _
  refine BinaryFormat.nearestCode_lt_infinityCode 1139 ?_ (by decide) (by decide)
  have hone : 2 ^ 64 * BinaryFormat.binary64.one < 2 ^ 1139 := by decide +kernel
  rw [Nat.div_one]
  exact Nat.lt_of_le_of_lt (Nat.mul_le_mul_right _ h) hone

/-- Single precision is inside the range of double precision, and what is not finite stays so. -/
theorem isFinite_convert (x : Single) : (x.convert .binary64).isFinite = x.isFinite := by
  by_cases hx : x.code < BinaryFormat.binary32.infinityCode
  · have hnan : x.isNaN = false := by
      simp only [isNaN, decide_eq_false_iff_not]
      omega
    have hinfinite : x.isInfinite = false := by
      simp only [isInfinite, beq_eq_false_iff_ne]
      omega
    rw [isFinite_iff.mpr hx, isFinite_iff, convert, hnan, hinfinite]
    show BinaryFormat.binary64.nearestCode (x.units * BinaryFormat.binary64.one)
      BinaryFormat.binary32.one < _
    refine BinaryFormat.nearestCode_lt_infinityCode 1400 ?_ (by decide) (by decide)
    -- Even the code of infinity has few enough units.
    have hbound : BinaryFormat.binary32.units BinaryFormat.binary32.infinityCode
        * BinaryFormat.binary64.one < 2 ^ 1400 := by decide +kernel
    have hunits := Nat.mul_le_mul_right BinaryFormat.binary64.one
      (BinaryFormat.binary32.units_le (Nat.le_of_lt hx))
    exact Nat.lt_of_le_of_lt (Nat.div_le_self _ _) (Nat.lt_of_le_of_lt hunits hbound)
  · have hfinite : x.isFinite = false := by simp [isFinite, hx]
    rw [hfinite, convert]
    split
    · rfl
    · have hinfinite : x.isInfinite = true := by
        simp_all only [isNaN, isInfinite, decide_eq_true_eq, beq_iff_eq]
        omega
      rw [hinfinite]
      rfl

end Binary

end SearchDsl
