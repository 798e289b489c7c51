import SearchDsl.Proofs.Binary.Exact
import SearchDsl.Proofs.Json.Numbers
import SearchDsl.Proofs.TopDocs.SortValue

/-!
# `SearchDsl.Proofs.TopDocs.Numbers`: sort values that are numbers

A response writes sort values as JSON numbers, and they are compared as long integers and doubles.
Two things could go wrong on the way. A long integer could be rounded when it is compared with a
double, and an integer beyond 64 signed bits is rounded when it is read.

`SortValue.order_exact` says that the first does not happen and that the second does no harm. A long
integer and a double compare as what they stand for. A number is read as what it stands for, or as
the nearest double if it is an integer of more bits (`SortValue.Reads`). Numbers in order are never
read as values out of order: the nearest double of such an integer lies beyond all long integers and
has passed no other double (`SortValue.Reads.units_le`). Zero is the exception, for zeros with
different signs have the same value, and doubles tell them apart.
-/

set_option autoImplicit false

namespace SearchDsl

namespace Json

/-- The exact value of a number. -/
def ratio? : Json → Option ℚ
  | int n => some n
  | double x => if x.isFinite then some x.ratio else none
  | _ => none

/-- The exact value of a number, in units of double precision. -/
def units : Json → Int
  | int n => n * BinaryFormat.binary64.one
  | double x => x.signedUnits
  | _ => 0

/-- The exact value of a number, counted in units. -/
theorem ratio?_mul_one {json : Json} {q : ℚ} (h : json.ratio? = some q) :
    q * BinaryFormat.binary64.one = json.units := by
  cases json with
  | int n =>
      obtain rfl := Option.some.inj h
      rw [units]
      push_cast
      rfl
  | double x =>
      obtain rfl := Option.some.inj (Option.ite_none_right_eq_some.mp h).2
      exact x.ratio_mul_one (by decide)
  | null | bool b | string s | array items | object members => contradiction

/-- Numbers in order have units in order. -/
theorem units_le_of_ratio? {a b : Json} {p q : ℚ} (hp : a.ratio? = some p) (hq : b.ratio? = some q)
    (h : p ≤ q) : a.units ≤ b.units := by
  have hunits := mul_le_mul_of_nonneg_right h (Nat.cast_nonneg BinaryFormat.binary64.one)
  rwa [ratio?_mul_one hp, ratio?_mul_one hq, Int.cast_le] at hunits

/-- Only zero has no units. -/
theorem eq_zero_of_units {json : Json} {q : ℚ} (hq : json.ratio? = some q)
    (h : json.units = 0) : q = 0 := by
  have hunits := ratio?_mul_one hq
  rw [h, Int.cast_zero] at hunits
  exact (mul_eq_zero.mp hunits).resolve_right (Nat.cast_ne_zero.mpr (Nat.ne_of_gt
    BinaryFormat.binary64.one_pos))

end Json

namespace SortValue

open Binary (IsNearest)

/-! ### Reading numbers -/

/-- How numbers are read: integers as long integers if they are in range of 64 signed bits and as
the nearest double if they are greater, and finite doubles as they are. -/
inductive Reads : Json → SortValue → Prop
  | long (n : Int64) : Reads (.int n.toInt) (long n)
  | double {x : Double} (hfinite : x.isFinite = true) : Reads (.double x) (double x)
  | rounded {n : Int} (hlong : 2 ^ 63 ≤ n) (hnearest : IsNearest n (.ofInt .binary64 n)) :
      Reads (.int n) (double (.ofInt .binary64 n))

/-- The sort value of a number in range reads that number. -/
theorem reads_ofJson {json : Json} (hrange : json.InRange) {q : ℚ} (h : json.ratio? = some q) :
    Reads json (ofJson json) := by
  cases json with
  | int n =>
      obtain ⟨hlow, hhigh⟩ := hrange
      have hmin : Int64.minValue.toInt = -2 ^ 63 := Int64.toInt_minValue
      have hmax : Int64.maxValue.toInt = 2 ^ 63 - 1 := Int64.toInt_maxValue
      have hsize : ((UInt64.size : Nat) : Int) = 2 ^ 64 := rfl
      by_cases hlong : n ≤ Int64.maxValue.toInt
      · have hread : (Json.int n).asLong? = some (Int64.ofInt n) := if_pos ⟨hlow, hlong⟩
        have hsame : (Int64.ofInt n).toInt = n :=
          Int64.toInt_ofInt_of_le (by omega) (by omega)
        have hlongValue := Reads.long (Int64.ofInt n)
        rw [hsame] at hlongValue
        rwa [ofJson, hread]
      · have hread : (Json.int n).asLong? = none := if_neg fun hboth => hlong hboth.2
        rw [ofJson, hread]
        exact .rounded (by omega)
          (Binary.isNearest_ofInt (by decide) (Binary.isFinite_ofInt (by omega)))
  | double x => exact .double (Option.ite_none_right_eq_some.mp h).1
  | null | bool b | string s | array items | object members => contradiction

namespace Reads

variable {x y : Json} {v w : SortValue}

/-- Numbers are read as numbers. -/
theorem rank_eq_one (h : Reads x v) : v.rank = 1 := by
  cases h <;> rfl

/-- The first integer that is rounded is a double. -/
theorem signedUnits_bound : (Binary.ofInt .binary64 (2 ^ 63)).isFinite = true ∧
    (Binary.ofInt .binary64 (2 ^ 63)).signedUnits = Binary.longBound := by
  decide +kernel

/-- What is rounded stays beyond all long integers. -/
theorem longBound_le {n : Int} {r : Double} (hlong : 2 ^ 63 ≤ n) (h : IsNearest n r) :
    (Binary.longBound : Int) ≤ r.signedUnits := by
  rw [← signedUnits_bound.2]
  refine h.ge_of_ge signedUnits_bound.1 ?_
  rw [signedUnits_bound.2, Binary.longBound_eq]
  exact Int.mul_le_mul_of_nonneg_right hlong (Int.le_of_lt Binary.one_pos)

/-- Numbers in order are not read as values out of order. -/
theorem units_le (hx : Reads x v) (hy : Reads y w) (h : x.units ≤ y.units) :
    v.units ≤ w.units := by
  cases hx with
  | long n =>
      cases hy with
      | long m => exact h
      | double hfinite => exact h
      | rounded hlong hnearest =>
          exact Int.le_trans (Int.le_of_lt (Binary.long_inside n).2) (longBound_le hlong hnearest)
  | double hfinite =>
      cases hy with
      | long m => exact h
      | double hfinite' => exact h
      | rounded hlong hnearest => exact hnearest.ge_of_ge hfinite h
  | @rounded n hlong hnearest =>
      cases hy with
      | long m =>
          -- No long integer is as great as one that has to be rounded.
          have hbound : (Binary.longBound : Int) ≤ n * BinaryFormat.binary64.one := by
            rw [Binary.longBound_eq]
            exact Int.mul_le_mul_of_nonneg_right hlong (Int.le_of_lt Binary.one_pos)
          exact absurd (Int.le_trans hbound h) (Int.not_le.mpr (Binary.long_inside m).2)
      | double hfinite => exact hnearest.le_of_le hfinite h
      | @rounded m hlong' hnearest' =>
          have hle : n ≤ m := Int.le_of_mul_le_mul_right h Binary.one_pos
          rcases Int.lt_or_eq_of_le hle with hlt | rfl
          · exact hnearest.le_of_lt hnearest' hlt
          · exact Int.le_refl _

/-- Only zero is read as zero. -/
theorem units_eq_zero (hx : Reads x v) (h : v.units = 0) : x.units = 0 := by
  cases hx with
  | long n => exact h
  | double hfinite => exact h
  | rounded hlong hnearest =>
      have hbound := longBound_le hlong hnearest
      have hpos : (0 : Int) < Binary.longBound := by decide +kernel
      rw [units] at h
      omega

/-- So the first of them is not the greater value, unless both are zeros. -/
theorem order_ne_gt (hx : Reads x v) (hy : Reads y w) (h : x.units ≤ y.units)
    (hzero : ¬(x.units = 0 ∧ y.units = 0)) : v.order w ≠ .gt := by
  have hle := hx.units_le hy h
  have hloose := looseOrder_of_rank_eq_one hx.rank_eq_one hy.rank_eq_one
  rw [order_eq, hloose]
  rcases Int.lt_or_eq_of_le hle with hlt | heq
  · rw [Int.compare_eq_lt.mpr hlt]
    exact Ordering.noConfusion
  · rw [Int.compare_eq_eq.mpr heq] at hloose ⊢
    -- The tie is broken only between zeros, and these have been read from zeros.
    have hnot : ¬(v.units = 0 ∧ w.units = 0) := fun hboth =>
      hzero ⟨hx.units_eq_zero hboth.1, hy.units_eq_zero hboth.2⟩
    have htie : v.tieBreak w = .eq := tieBreak_eq_eq
      (by rintro ⟨rfl, rfl⟩; exact hnot ⟨rfl, rfl⟩) (by rintro ⟨rfl, rfl⟩; exact hnot ⟨rfl, rfl⟩)
      hloose
    rw [htie]
    exact Ordering.noConfusion

end Reads

/-! ### The order of numbers -/

/-- A long integer and a double compare as what they stand for, whatever the double is if only not a
NaN, and in either order. Numbers of a response are read as what they stand for or, if they are
integers beyond the long ones, as the nearest double. So of two numbers in order that are not both
zero the first is never read as a greater value. -/
theorem order_exact :
    (∀ (n : Int64) (x : Double), x.isNaN = false → ∃ v, x.value? = some v ∧
      (long n).order (double x) = compare (Extended.ofRat n.toInt) v ∧
      (double x).order (long n) = ((long n).order (double x)).swap) ∧
    (∀ (json : Json) (q : ℚ), json.InRange → json.ratio? = some q → Reads json (ofJson json)) ∧
    ∀ (a b : Json) (p q : ℚ), a.InRange → b.InRange → a.ratio? = some p → b.ratio? = some q →
      p ≤ q → ¬(p = 0 ∧ q = 0) → (ofJson a).order (ofJson b) ≠ .gt := by
  refine ⟨fun n x hnan => ?_, fun json q hrange hq => reads_ofJson hrange hq,
    fun a b p q ha hb hp hq hle hzero => ?_⟩
  · obtain ⟨v, hv⟩ := Binary.exists_value? hnan
    exact ⟨v, hv, Binary.compareLong_eq_compare_value n hv, rfl⟩
  · refine (reads_ofJson ha hp).order_ne_gt (reads_ofJson hb hq)
      (Json.units_le_of_ratio? hp hq hle) ?_
    exact fun hboth => hzero ⟨Json.eq_zero_of_units hp hboth.1, Json.eq_zero_of_units hq hboth.2⟩

/-- At the first long integer that no double equals, against the double it would be rounded to, and
at the greatest unsigned integer, which is read as the double above it. -/
theorem order_exact_rounded :
    let n : Int64 := 9007199254740993
    let x : Double := .ofInt .binary64 9007199254740992
    let a : Json := .int 18446744073709551615
    let b : Json := .double (.ofInt .binary64 18446744073709551616)
    (∃ v, x.value? = some v ∧ (long n).order (double x) = compare (Extended.ofRat n.toInt) v ∧
      (double x).order (long n) = ((long n).order (double x)).swap) ∧
    (long n).order (double x) = .gt ∧
    Reads a (ofJson a) ∧ ofJson a = ofJson b ∧ (ofJson a).order (ofJson b) ≠ .gt := by
  have hrange : Json.InRange (.int 18446744073709551615) := ⟨by decide, by decide⟩
  have hfinite : Json.InRange (.double (.ofInt .binary64 18446744073709551616)) :=
    show (Binary.ofInt .binary64 18446744073709551616).isFinite = true by decide +kernel
  have ha : Json.ratio? (.int 18446744073709551615) = some 18446744073709551615 := by
    decide +kernel
  have hb : Json.ratio? (.double (.ofInt .binary64 18446744073709551616))
      = some 18446744073709551616 := by decide +kernel
  exact ⟨order_exact.1 9007199254740993 (.ofInt .binary64 9007199254740992) (by decide +kernel),
    by decide +kernel, order_exact.2.1 _ _ hrange ha, by decide +kernel,
    order_exact.2.2 _ _ _ _ hrange hfinite ha hb (by norm_num) (by norm_num)⟩

end SortValue

end SearchDsl
