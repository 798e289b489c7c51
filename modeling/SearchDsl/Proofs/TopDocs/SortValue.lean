import Mathlib.Data.List.Perm.Subperm
import SearchDsl.Proofs.Binary.Value
import SearchDsl.TopDocs.SortValue

/-!
# `SearchDsl.Proofs.TopDocs.SortValue`: how far the order of sort values is transitive

The order of sort values joins two orders. A long integer and a double are compared by their exact
values, so the integer zero is equal to both zeros among the doubles. Two doubles are compared by
their total order, which tells the zeros apart. These three values are a cycle.

They are the only one. The order agrees with `looseOrder`, where all zeros are equal, unless it
compares the two double zeros (`order_eq_looseOrder`), and with `fineOrder`, where the negative zero
comes first, unless it compares the integer zero (`order_eq_fineOrder`). Three values that are not
the three zeros avoid one of the two, so they are ordered by one of two transitive orders
(`coherent_order`).

`Coherent` states transitivity of three comparisons rather than of a relation. That carries over to
lexicographic combinations and to reversed orders, where transitivity of `isLE` alone does not.
-/

set_option autoImplicit false

namespace SearchDsl

/-- The comparisons of a first thing with a second, of the second with a third and of the first with
the third fit together: what is equal is interchangeable, and what holds twice in a row holds of the
ends. -/
structure Coherent (ab bc ac : Ordering) : Prop where
  eq_left : ab = .eq → ac = bc
  eq_right : bc = .eq → ac = ab
  same : ab = bc → ac = ab

namespace Coherent

variable {ab bc ac ab' bc' ac' : Ordering}

/-- A transitive order compares any three things coherently. -/
theorem of_transCmp {α : Type} (cmp : α → α → Ordering) [Std.TransCmp cmp] (a b c : α) :
    Coherent (cmp a b) (cmp b c) (cmp a c) where
  eq_left h := Std.TransCmp.congr_left h
  eq_right h := (Std.TransCmp.congr_right h).symm
  same h := by
    cases hab : cmp a b with
    | lt => exact Std.TransCmp.lt_trans hab (h ▸ hab)
    | eq => exact Std.TransCmp.eq_trans hab (h ▸ hab)
    | gt => exact Std.TransCmp.gt_trans hab (h ▸ hab)

/-- Coherent comparisons stay coherent when all are reversed. -/
theorem swap (h : Coherent ab bc ac) : Coherent ab.swap bc.swap ac.swap where
  eq_left hab := by rw [h.eq_left (Ordering.swap_eq_eq.mp hab)]
  eq_right hbc := by rw [h.eq_right (Ordering.swap_eq_eq.mp hbc)]
  same heq := by rw [h.same (Ordering.swap_inj.mp heq)]

/-- Comparisons that decide where others leave things equal. -/
theorem lex (h : Coherent ab bc ac) (h' : Coherent ab' bc' ac') :
    Coherent (ab.then ab') (bc.then bc') (ac.then ac') := by
  obtain ⟨hleft, hright, hsame⟩ := h
  obtain ⟨hleft', hright', hsame'⟩ := h'
  cases ab <;> cases bc <;> simp_all [Ordering.then] <;>
    constructor <;> simp_all

/-- The first is apart from the other two, on the same side of both. -/
theorem of_first_apart (h : ab ≠ .eq) : Coherent ab bc ab :=
  ⟨fun heq => absurd heq h, fun _ => rfl, fun _ => rfl⟩

/-- The third is apart from the other two, on the same side of both. -/
theorem of_last_apart (h : bc ≠ .eq) : Coherent ab bc bc :=
  ⟨fun _ => rfl, fun heq => absurd heq h, fun heq => heq.symm⟩

/-- The second is apart from the other two, on the same side of both. -/
theorem of_middle_apart (h : ab ≠ .eq) (hswap : bc = ab.swap) : Coherent ab bc ac := by
  subst hswap
  cases ab with
  | lt => exact ⟨fun heq => absurd heq h, nofun, nofun⟩
  | eq => exact absurd rfl h
  | gt => exact ⟨fun heq => absurd heq h, nofun, nofun⟩

/-- Coherent comparisons are transitive. -/
theorem isLE (h : Coherent ab bc ac) (hab : ab.isLE) (hbc : bc.isLE) : ac.isLE := by
  cases ab with
  | lt =>
      cases bc with
      | lt => rw [h.same rfl]; rfl
      | eq => rw [h.eq_right rfl]; rfl
      | gt => simp at hbc
  | eq => rwa [h.eq_left rfl]
  | gt => simp at hab

end Coherent

namespace SortValue

/-- Swapping two values reverses their order. -/
theorem order_swap (a b : SortValue) : b.order a = (a.order b).swap := by
  cases a with
  | missing => cases b <;> rfl
  | long n =>
      cases b with
      | long m => exact Std.OrientedOrd.eq_swap (α := Int)
      | _ => rfl
  | double x =>
      cases b with
      | long m => exact Ordering.swap_swap.symm
      | double y => exact Std.OrientedOrd.eq_swap (α := Int)
      | _ => rfl
  | text s =>
      cases b with
      | text t => exact Std.OrientedOrd.eq_swap (α := String)
      | _ => rfl

/-! ### Two transitive orders -/

/-- The exact value of a number, as a multiple of the least positive double. -/
def units : SortValue → Int
  | long n => n.toInt * BinaryFormat.binary64.one
  | double x => x.signedUnits
  | _ => 0

/-- The text of a text. -/
def label : SortValue → String
  | text s => s
  | _ => ""

/-- The order in which all three zeros are equal. -/
def looseOrder : SortValue → SortValue → Ordering :=
  compareLex (compareOn rank) (compareLex (compareOn units) (compareOn label))

/-- The positive zero among the doubles. -/
def positiveZero : SortValue := double (.zero .binary64 false)

/-- The negative zero among the doubles. -/
def negativeZero : SortValue := double (.zero .binary64 true)

/-- The three values that stand for zero. -/
def zeros : List SortValue := [positiveZero, long 0, negativeZero]

/-- Tells the negative zero from all other values. -/
def zeroSign (v : SortValue) : Nat := if v = negativeZero then 0 else 1

/-- The order in which the negative zero comes before the other two. -/
def fineOrder : SortValue → SortValue → Ordering :=
  compareLex looseOrder (compareOn zeroSign)

instance : Std.TransCmp looseOrder :=
  inferInstanceAs (Std.TransCmp (compareLex _ _))

instance : Std.TransCmp fineOrder :=
  inferInstanceAs (Std.TransCmp (compareLex _ _))

/-- What the total order of doubles adds to the order of their values. -/
def tieBreak : SortValue → SortValue → Ordering
  | double x, double y => compare x.rank y.rank
  | _, _ => .eq

/-- A common factor does not change how integers compare. -/
theorem compare_mul_right {a b k : Int} (hk : 0 < k) : compare (a * k) (b * k) = compare a b := by
  rcases Int.lt_trichotomy a b with hlt | rfl | hgt
  · rw [Int.compare_eq_lt.mpr hlt]
    exact Int.compare_eq_lt.mpr (Int.mul_lt_mul_of_pos_right hlt hk)
  · rw [Int.compare_eq_eq.mpr rfl, Int.compare_eq_eq.mpr rfl]
  · rw [Int.compare_eq_gt.mpr hgt]
    exact Int.compare_eq_gt.mpr (Int.mul_lt_mul_of_pos_right hgt hk)

/-- Among numbers the loose order is the order of the exact values. -/
theorem looseOrder_of_rank_eq_one {a b : SortValue} (ha : a.rank = 1) (hb : b.rank = 1) :
    a.looseOrder b = compare a.units b.units := by
  have hlabel : ∀ {v : SortValue}, v.rank = 1 → v.label = "" := by
    intro v hv
    cases v <;> simp_all [rank, label]
  show (compare a.rank b.rank).then ((compare a.units b.units).then (compare a.label b.label)) = _
  rw [ha, hb, hlabel ha, hlabel hb]
  exact Ordering.then_eq

/-- The order of sort values is that of their exact values, and the total order breaks the ties
between doubles. -/
theorem order_eq (a b : SortValue) : a.order b = (a.looseOrder b).then (a.tieBreak b) := by
  -- Values of different kinds are ordered by the kinds alone, on both sides.
  cases a with
  | missing => cases b <;> rfl
  | long n =>
      cases b with
      | long m =>
          rw [looseOrder_of_rank_eq_one rfl rfl]
          show compare n.toInt m.toInt = _
          rw [← compare_mul_right (Int.natCast_pos.mpr BinaryFormat.binary64.one_pos)]
          exact Ordering.then_eq.symm
      | double y =>
          rw [looseOrder_of_rank_eq_one rfl rfl]
          show Binary.compareLong n y = _
          rw [Binary.compareLong_eq]
          exact Ordering.then_eq.symm
      | _ => rfl
  | double x =>
      cases b with
      | long m =>
          rw [looseOrder_of_rank_eq_one rfl rfl]
          show (Binary.compareLong m x).swap = _
          rw [Binary.compareLong_eq, ← Std.OrientedOrd.eq_swap]
          exact Ordering.then_eq.symm
      | double y =>
          rw [looseOrder_of_rank_eq_one rfl rfl]
          exact Binary.totalOrder_eq x y
      | _ => rfl
  | text s =>
      cases b with
      | text t => exact Ordering.then_eq.symm
      | _ => rfl

/-- Values that the loose order does not tell apart are of one kind and have one value. -/
theorem rank_eq_and_units_eq_of_looseOrder {a b : SortValue} (h : a.looseOrder b = .eq) :
    a.rank = b.rank ∧ a.units = b.units := by
  have h' : (compare a.rank b.rank).then
      ((compare a.units b.units).then (compare a.label b.label)) = .eq := h
  rw [Ordering.then_eq_eq, Ordering.then_eq_eq] at h'
  exact ⟨Nat.compare_eq_eq.mp h'.1, Int.compare_eq_eq.mp h'.2.1⟩

/-- A double with the code zero is one of the two zeros. -/
theorem eq_zero_of_code_eq_zero {x : Double} (h : x.code = 0) : x = .zero .binary64 x.negative := by
  obtain ⟨negative, code, hcode⟩ := x
  obtain rfl : code = 0 := h
  rfl

/-- Only the other zeros have the value of the negative zero. -/
theorem mem_zeros_of_looseOrder {b : SortValue} (h : negativeZero.looseOrder b = .eq) :
    b ∈ zeros := by
  obtain ⟨hrank, hunits⟩ := rank_eq_and_units_eq_of_looseOrder h
  cases b with
  | missing => simp [negativeZero, rank] at hrank
  | text s => simp [negativeZero, rank] at hrank
  | long n =>
      have hone := BinaryFormat.binary64.one_pos
      have hzero : (0 : Int) = n.toInt * BinaryFormat.binary64.one := hunits
      have hn : n.toInt = 0 := by
        rcases Int.mul_eq_zero.mp hzero.symm with hn | hone'
        · exact hn
        · omega
      have : n = 0 := Int64.toInt_inj.mp hn
      simp [this, zeros]
  | double x =>
      have hcode : x.code = 0 := by
        rcases Binary.eq_or_zero_of_signedUnits_eq hunits with heq | hzero
        · exact heq ▸ rfl
        · exact hzero.2
      rw [eq_zero_of_code_eq_zero hcode]
      cases x.negative <;> simp [zeros, positiveZero, negativeZero]

/-- Ties are broken only between the two zeros among the doubles. -/
theorem tieBreak_eq_eq {a b : SortValue} (hpn : ¬(a = positiveZero ∧ b = negativeZero))
    (hnp : ¬(a = negativeZero ∧ b = positiveZero)) (h : a.looseOrder b = .eq) :
    a.tieBreak b = .eq := by
  cases a with
  | double x =>
      cases b with
      | double y =>
          have hunits : x.signedUnits = y.signedUnits := (rank_eq_and_units_eq_of_looseOrder h).2
          rcases Binary.eq_or_zero_of_signedUnits_eq hunits with rfl | ⟨hx, hy⟩
          · exact Int.compare_eq_eq.mpr rfl
          · -- Two zeros that are not opposite are the same.
            rw [eq_zero_of_code_eq_zero hx, eq_zero_of_code_eq_zero hy] at hpn hnp ⊢
            cases hxn : x.negative <;> cases hyn : y.negative <;>
              simp_all [positiveZero, negativeZero, tieBreak]
      | _ => rfl
  | _ => rfl

/-- Between values other than the two double zeros, the order is the one in which all three zeros
are equal. -/
theorem order_eq_looseOrder {a b : SortValue} (hpn : ¬(a = positiveZero ∧ b = negativeZero))
    (hnp : ¬(a = negativeZero ∧ b = positiveZero)) : a.order b = a.looseOrder b := by
  rw [order_eq]
  cases h : a.looseOrder b with
  | lt => rfl
  | eq => exact tieBreak_eq_eq hpn hnp h
  | gt => rfl

/-- Between values other than the integer zero, the order is the one in which the negative zero
comes first. -/
theorem order_eq_fineOrder {a b : SortValue} (ha : a ≠ long 0) (hb : b ≠ long 0) :
    a.order b = a.fineOrder b := by
  rw [order_eq]
  show _ = (a.looseOrder b).then (compare a.zeroSign b.zeroSign)
  cases h : a.looseOrder b with
  | lt => rfl
  | gt => rfl
  | eq =>
      show a.tieBreak b = compare a.zeroSign b.zeroSign
      -- A negative zero ties with the double zeros only, and there both sides compare the signs.
      by_cases han : a = negativeZero
      · subst han
        have hmem := mem_zeros_of_looseOrder h
        simp only [zeros, List.mem_cons, List.not_mem_nil, or_false] at hmem
        rcases hmem with rfl | rfl | rfl
        · rfl
        · exact absurd rfl hb
        · rfl
      · by_cases hbn : b = negativeZero
        · subst hbn
          have hmem : a ∈ zeros := by
            have hswap : negativeZero.looseOrder a = (a.looseOrder negativeZero).swap :=
              Std.OrientedCmp.eq_swap
            exact mem_zeros_of_looseOrder (by rw [hswap, h]; rfl)
          simp only [zeros, List.mem_cons, List.not_mem_nil, or_false] at hmem
          rcases hmem with rfl | rfl | rfl
          · rfl
          · exact absurd rfl ha
          · rfl
        · rw [tieBreak_eq_eq (fun hab => hbn hab.2) (fun hab => han hab.1) h]
          simp [zeroSign, han, hbn]

/-! ### The one cycle -/

/-- Three values are ordered coherently, unless they are the three zeros. -/
theorem coherent_order {a b c : SortValue} (h : ¬[a, b, c].Perm zeros) :
    Coherent (a.order b) (b.order c) (a.order c) := by
  by_cases hlong : long 0 ∈ [a, b, c]
  · -- One of the double zeros does not occur, so they are never compared with each other.
    have hsome : ¬(positiveZero ∈ [a, b, c] ∧ negativeZero ∈ [a, b, c]) := by
      intro ⟨hpos, hneg⟩
      have hsubset : zeros ⊆ [a, b, c] := by
        intro z hz
        simp only [zeros, List.mem_cons, List.not_mem_nil, or_false] at hz
        rcases hz with rfl | rfl | rfl <;> assumption
      have hsubperm := List.subperm_of_subset (show zeros.Nodup by decide) hsubset
      exact h (hsubperm.perm_of_length_le (by simp [zeros])).symm
    have hloose : ∀ v ∈ [a, b, c], ∀ w ∈ [a, b, c], v.order w = v.looseOrder w :=
      fun v hv w hw => order_eq_looseOrder
        (fun ⟨hvp, hwn⟩ => hsome ⟨hvp ▸ hv, hwn ▸ hw⟩)
        (fun ⟨hvn, hwp⟩ => hsome ⟨hwp ▸ hw, hvn ▸ hv⟩)
    rw [hloose a (by simp) b (by simp), hloose b (by simp) c (by simp),
      hloose a (by simp) c (by simp)]
    exact .of_transCmp looseOrder a b c
  · -- Without the integer zero the signs of the zeros may count everywhere.
    simp only [List.mem_cons, List.not_mem_nil, or_false, not_or] at hlong
    obtain ⟨ha, hb, hc⟩ := hlong
    rw [order_eq_fineOrder (Ne.symm ha) (Ne.symm hb), order_eq_fineOrder (Ne.symm hb) (Ne.symm hc),
      order_eq_fineOrder (Ne.symm ha) (Ne.symm hc)]
    exact .of_transCmp fineOrder a b c

/-- Of two steps among the zeros that are in order, only one pair leads out of order. -/
theorem order_isLE_trans_zeros : ∀ a ∈ zeros, ∀ b ∈ zeros, ∀ c ∈ zeros,
    (a.order b).isLE → (b.order c).isLE →
      ¬(a = positiveZero ∧ b = long 0 ∧ c = negativeZero) → (a.order c).isLE := by
  decide +kernel

/-- The order is transitive but for one chain: the positive zero, the integer zero, the negative
zero. -/
theorem order_isLE_trans_iff {a b c : SortValue} (hab : (a.order b).isLE) (hbc : (b.order c).isLE) :
    (a.order c).isLE ↔ ¬(a = positiveZero ∧ b = long 0 ∧ c = negativeZero) := by
  constructor
  · rintro hac ⟨rfl, rfl, rfl⟩
    exact absurd hac (by decide +kernel)
  · intro hchain
    by_cases hperm : [a, b, c].Perm zeros
    · exact order_isLE_trans_zeros a (hperm.subset (by simp)) b (hperm.subset (by simp))
        c (hperm.subset (by simp)) hab hbc hchain
    · exact (coherent_order hperm).isLE hab hbc

end SortValue

end SearchDsl
