import Mathlib.Data.List.Chain
import SearchDsl.Proofs.TopDocs.Queue

/-!
# `SearchDsl.Proofs.TopDocs.StableSort`: what a stable sort puts first

Merging takes one element at a time from the fronts of several lists. `mergeSort_append_cons` says
when that is what sorting does: the first element of the sorted list is the one that comes strictly
before everything left of it and not after anything right of it.

The order need only be consistent among the elements that are sorted. `Consistent.extend` puts all
others behind them, which gives the order on the whole type that the library's lemmas ask for.

Sorting can also be done in parts. What is first among all elements is first in its part, so the
other elements of the parts need not be kept (`Consistent.take_mergeSort_flatten`).
-/

set_option autoImplicit false

namespace SearchDsl.StableSort

open Queue (Consistent)

variable {α : Type} {le : α → α → Bool} {S : α → Prop}

/-- An order that is consistent among some elements agrees there with one that is consistent among
all. -/
theorem Consistent.extend (hc : Consistent le S) :
    ∃ le' : α → α → Bool, (∀ a b, S a → S b → le' a b = le a b) ∧ (∀ a b, le' a b || le' b a) ∧
      ∀ a b c, le' a b → le' b c → le' a c := by
  classical
  -- The elements without the property come last, in any order.
  refine ⟨fun a b => if S a then (if S b then le a b else true) else !decide (S b), ?_, ?_, ?_⟩
  · intro a b ha hb
    simp [ha, hb]
  · intro a b
    by_cases ha : S a <;> by_cases hb : S b <;> simp [ha, hb]
    exact hc.total a b ha hb
  · intro a b c
    by_cases ha : S a <;> by_cases hb : S b <;> by_cases hc' : S c <;> simp [ha, hb, hc']
    exact hc.trans a b c ha hb hc'

/-- Where each element is in order with the next one, any two are in order. -/
theorem pairwise_of_isChain (hc : Consistent le S) {l : List α} (hS : ∀ a ∈ l, S a)
    (hl : l.IsChain fun a b => le a b) : l.Pairwise fun a b => le a b := by
  induction l with
  | nil => exact .nil
  | cons a rest ih =>
      have hrest := ih (fun b hb => hS b (List.mem_cons_of_mem _ hb)) hl.tail
      refine List.pairwise_cons.mpr ⟨fun c hmem => ?_, hrest⟩
      cases rest with
      | nil => simp at hmem
      | cons b rest =>
          have hab : le a b := (List.isChain_cons_cons.mp hl).1
          rcases List.mem_cons.mp hmem with rfl | hlater
          · exact hab
          · exact hc.trans a b c (hS a (by simp)) (hS b (by simp)) (hS c (by simp [hlater])) hab
              ((List.pairwise_cons.mp hrest).1 c hlater)

/-- Sorting sees the order among the elements only. -/
theorem mergeSort_congr {le' : α → α → Bool} {l : List α}
    (h : ∀ a ∈ l, ∀ b ∈ l, le a b = le' a b) : l.mergeSort le = l.mergeSort le' := by
  have hmap : (l.mergeSort le).map id = (l.map id).mergeSort le' := List.map_mergeSort h
  simpa using hmap

/-- Sorting one more element in front inserts it before the first that it is not after. -/
theorem mergeSort_cons_eq (hc : Consistent le S) {a : α} {l : List α} (hS : ∀ b ∈ a :: l, S b) :
    (a :: l).mergeSort le
      = (l.mergeSort le).takeWhile (!le a ·) ++ a :: (l.mergeSort le).dropWhile (!le a ·) := by
  obtain ⟨le', hagree, htotal, htrans⟩ := Consistent.extend hc
  -- On the elements at hand both orders are the same, so sorting by either is the same.
  have hcongr : ∀ m : List α, m ⊆ a :: l → m.mergeSort le = m.mergeSort le' := fun m hm =>
    mergeSort_congr fun b hb c hc => (hagree b c (hS b (hm hb)) (hS c (hm hc))).symm
  obtain ⟨before, after, hcons, htail, hbefore⟩ := List.mergeSort_cons htrans htotal a l
  have hmem : ∀ b ∈ before ++ after, b ∈ a :: l := fun b hb =>
    List.mem_cons_of_mem _ (List.mem_mergeSort.mp (htail ▸ hb))
  have hafter : ∀ b ∈ after, le' a b := by
    have hsorted := List.pairwise_mergeSort htrans htotal (a :: l)
    rw [hcons, List.pairwise_append, List.pairwise_cons] at hsorted
    exact hsorted.2.1.1
  -- The new element stands between those that come strictly before it and those that do not.
  have hle : ∀ b ∈ before ++ after, le a b = le' a b := fun b hb =>
    (hagree a b (hS a List.mem_cons_self) (hS b (hmem b hb))).symm
  rw [hcongr _ (List.Subset.refl _), hcongr l (List.subset_cons_self a l), hcons, htail]
  have htake : ∀ b ∈ before, (!le a b) = true := fun b hb => by
    rw [hle b (List.mem_append_left _ hb)]
    exact hbefore b hb
  rw [List.takeWhile_append_of_pos htake, List.dropWhile_append_of_pos htake]
  cases after with
  | nil => simp
  | cons b after =>
      have hb : le a b = true := by
        rw [hle b (by simp)]
        exact hafter b List.mem_cons_self
      simp [hb]

/-- What comes strictly before everything left of it, and not after anything right of it, is first
in the sorted list. -/
theorem mergeSort_append_cons (hc : Consistent le S) {before after : List α} {a : α}
    (hS : ∀ b ∈ before ++ a :: after, S b) (hbefore : ∀ b ∈ before, le b a = false)
    (hafter : ∀ b ∈ after, le a b) :
    (before ++ a :: after).mergeSort le = a :: (before ++ after).mergeSort le := by
  induction before with
  | nil =>
      rw [List.nil_append, mergeSort_cons_eq hc hS]
      cases hsort : after.mergeSort le with
      | nil => simp [hsort]
      | cons b rest =>
          have hb : b ∈ after := List.mem_mergeSort.mp (hsort ▸ List.mem_cons_self)
          simp [hsort, hafter b hb]
  | cons b before ih =>
      have hall : ∀ c ∈ b :: (before ++ a :: after), S c := hS
      have htail : ∀ c ∈ before ++ a :: after, S c := fun c hc => hall c (List.mem_cons_of_mem _ hc)
      have hsub : (before ++ after).Sublist (before ++ a :: after) :=
        (List.sublist_cons_self a after).append_left before
      have hrest : ∀ c ∈ b :: (before ++ after), S c := fun c hmem =>
        hall c ((hsub.cons_cons b).subset hmem)
      -- By induction `a` is first in the sorted rest. The element in front of it is inserted after
      -- `a`, at the place that it gets without `a`.
      rw [List.cons_append, mergeSort_cons_eq hc hall,
        ih htail fun c hmem => hbefore c (List.mem_cons_of_mem _ hmem), List.cons_append,
        mergeSort_cons_eq hc hrest]
      simp [hbefore b List.mem_cons_self]

/-- Sorted elements are in order. -/
theorem pairwise_mergeSort (hc : Consistent le S) {l : List α} (hS : ∀ a ∈ l, S a) :
    (l.mergeSort le).Pairwise fun a b => le a b := by
  obtain ⟨le', hagree, htotal, htrans⟩ := Consistent.extend hc
  have hsame : ∀ a ∈ l, ∀ b ∈ l, le' a b = le a b := fun a ha b hb =>
    hagree a b (hS a ha) (hS b hb)
  rw [mergeSort_congr fun a ha b hb => (hsame a ha b hb).symm]
  refine (List.pairwise_mergeSort htrans htotal l).imp_of_mem fun {a b} ha hb hab => ?_
  rw [← hsame a (List.mem_mergeSort.mp ha) b (List.mem_mergeSort.mp hb)]
  exact hab

/-! ### Sorting in parts

A list can be sorted by sorting parts of it and merging those. The first elements of the sorted list
are among the first ones of the sorted parts. -/

/-- The first element on the left goes first if it may. -/
theorem merge_cons_of_le {a b : α} (h : le a b) (as bs : List α) :
    (a :: as).merge (b :: bs) le = a :: as.merge (b :: bs) le := by
  rw [List.cons_merge_cons, if_pos h]

/-- Otherwise the first element on the right does. -/
theorem merge_cons_of_not_le {a b : α} (h : ¬le a b) (as bs : List α) :
    (a :: as).merge (b :: bs) le = b :: (a :: as).merge bs le := by
  rw [List.cons_merge_cons, if_neg h]

/-- As many elements as given are first after merging, and they are among as many from each list. -/
theorem take_merge_take (as bs : List α) {n m k : Nat} (hm : n ≤ m) (hk : n ≤ k) :
    ((as.take m).merge (bs.take k) le).take n = (as.merge bs le).take n := by
  induction n generalizing as bs m k with
  | zero => simp
  | succ n ih =>
      obtain ⟨m, rfl⟩ : ∃ m', m = m' + 1 := Nat.exists_eq_add_one.mpr (by omega)
      obtain ⟨k, rfl⟩ : ∃ k', k = k' + 1 := Nat.exists_eq_add_one.mpr (by omega)
      cases as with
      | nil =>
          rw [List.take_nil, List.nil_merge, List.nil_merge, List.take_take, Nat.min_eq_left hk]
      | cons a as =>
          cases bs with
          | nil =>
              rw [List.take_nil, List.merge_right, List.merge_right, List.take_take,
                Nat.min_eq_left hm]
          | cons b bs =>
              -- One list is shorter after a step, and the other one still has its first element.
              by_cases hab : le a b
              · have hrest := ih as (b :: bs) (m := m) (k := k + 1) (by omega) (by omega)
                rw [List.take_succ_cons] at hrest
                rw [List.take_succ_cons, List.take_succ_cons, merge_cons_of_le hab,
                  merge_cons_of_le hab, List.take_succ_cons, List.take_succ_cons, hrest]
              · have hrest := ih (a :: as) bs (m := m + 1) (k := k) (by omega) (by omega)
                rw [List.take_succ_cons] at hrest
                rw [List.take_succ_cons, List.take_succ_cons, merge_cons_of_not_le hab,
                  merge_cons_of_not_le hab, List.take_succ_cons, List.take_succ_cons, hrest]

section Parts

variable (htotal : ∀ a b, le a b || le b a) (htrans : ∀ a b c, le a b → le b c → le a c)
include htotal htrans

/-- Merging takes the least of the first elements, and of equal ones that of the first list. So it
does not matter which two lists are merged first. -/
theorem merge_assoc (as bs cs : List α) :
    (as.merge bs le).merge cs le = as.merge (bs.merge cs le) le := by
  induction as generalizing bs cs with
  | nil => rw [List.nil_merge, List.nil_merge]
  | cons a as iha =>
      induction bs generalizing cs with
      | nil => rw [List.merge_right, List.nil_merge]
      | cons b bs ihb =>
          induction cs with
          | nil => rw [List.merge_right, List.merge_right]
          | cons c cs ihc =>
              by_cases hab : le a b <;> by_cases hbc : le b c
              · have hac : le a c := htrans a b c hab hbc
                rw [merge_cons_of_le hab, merge_cons_of_le hac, iha, merge_cons_of_le hbc,
                  merge_cons_of_le hab]
              · rw [merge_cons_of_not_le hbc]
                by_cases hac : le a c
                · rw [merge_cons_of_le hab, merge_cons_of_le hac, iha, merge_cons_of_not_le hbc,
                    merge_cons_of_le hac]
                · rw [merge_cons_of_not_le hac, ← ihc, merge_cons_of_le hab,
                    merge_cons_of_not_le hac]
              · rw [merge_cons_of_not_le hab, merge_cons_of_le hbc, ihb, merge_cons_of_le hbc,
                  merge_cons_of_not_le hab]
              · -- The last list has the least first element, as `b` comes before `a`.
                have hac : ¬le a c := by
                  intro hac
                  have hba : le b a := by simpa [hab] using htotal a b
                  exact hbc (htrans b a c hba hac)
                rw [merge_cons_of_not_le hbc, merge_cons_of_not_le hac, ← ihc,
                  merge_cons_of_not_le hab, merge_cons_of_not_le hbc]

/-- Sorting one more element in front merges it with the sorted rest. -/
theorem mergeSort_cons_eq_merge (a : α) (l : List α) :
    (a :: l).mergeSort le = [a].merge (l.mergeSort le) le := by
  have hc : Consistent le fun _ => True :=
    ⟨fun a b _ _ => by simpa using htotal a b, fun a b c _ _ _ => htrans a b c⟩
  have hmerge : ∀ m : List α,
      [a].merge m le = m.takeWhile (!le a ·) ++ a :: m.dropWhile (!le a ·) := by
    intro m
    induction m with
    | nil => simp
    | cons b m ih =>
        by_cases hab : le a b
        · simp [merge_cons_of_le hab, hab]
        · simp [merge_cons_of_not_le hab, hab, ih]
  rw [mergeSort_cons_eq hc fun _ _ => trivial, hmerge]

/-- Sorting two lists together merges them sorted. -/
theorem mergeSort_append (as bs : List α) :
    (as ++ bs).mergeSort le = (as.mergeSort le).merge (bs.mergeSort le) le := by
  induction as with
  | nil => simp
  | cons a as ih =>
      rw [List.cons_append, mergeSort_cons_eq_merge htotal htrans, ih,
        mergeSort_cons_eq_merge htotal htrans, merge_assoc htotal htrans]

/-- The first elements of a sorted list are those of the first elements of its parts, sorted. -/
theorem take_mergeSort_flatten (groups : List (List α)) (n : Nat) :
    ((groups.flatMap fun group => (group.mergeSort le).take n).mergeSort le).take n
      = (groups.flatten.mergeSort le).take n := by
  induction groups with
  | nil => rfl
  | cons group groups ih =>
      have hsorted : ((group.mergeSort le).take n).mergeSort le = (group.mergeSort le).take n :=
        List.mergeSort_of_pairwise
          ((List.pairwise_mergeSort htrans htotal group).sublist (List.take_sublist _ _))
      rw [List.flatMap_cons, List.flatten_cons, mergeSort_append htotal htrans,
        mergeSort_append htotal htrans, hsorted]
      -- Only the first elements of what is merged count, and those are the same by induction.
      rw [← take_merge_take _ _ (Nat.le_refl n) (Nat.le_refl n), ih, List.take_take, Nat.min_self,
        take_merge_take _ _ (Nat.le_refl n) (Nat.le_refl n)]

end Parts

/-- For sorting in parts, too, the order need only be consistent among the elements. -/
theorem Consistent.take_mergeSort_flatten (hc : Consistent le S) {groups : List (List α)}
    (hS : ∀ group ∈ groups, ∀ a ∈ group, S a) (n : Nat) :
    ((groups.flatMap fun group => (group.mergeSort le).take n).mergeSort le).take n
      = (groups.flatten.mergeSort le).take n := by
  obtain ⟨le', hagree, htotal, htrans⟩ := Consistent.extend hc
  have hcongr : ∀ l : List α, (∀ a ∈ l, S a) → l.mergeSort le = l.mergeSort le' := fun l hl =>
    mergeSort_congr fun a ha b hb => (hagree a b (hl a ha) (hl b hb)).symm
  have hparts : (groups.flatMap fun group => (group.mergeSort le).take n)
      = groups.flatMap fun group => (group.mergeSort le').take n :=
    List.flatMap_congr fun group hgroup => by rw [hcongr group (hS group hgroup)]
  have hflatten : ∀ a ∈ groups.flatten, S a := by
    intro a ha
    obtain ⟨group, hgroup, hmem⟩ := List.mem_flatten.mp ha
    exact hS group hgroup a hmem
  have hfirst : ∀ a ∈ groups.flatMap fun group => (group.mergeSort le').take n, S a := by
    intro a ha
    obtain ⟨group, hgroup, hmem⟩ := List.mem_flatMap.mp ha
    exact hS group hgroup a (List.mem_mergeSort.mp (List.mem_of_mem_take hmem))
  rw [hparts, hcongr _ hfirst, hcongr _ hflatten]
  exact StableSort.take_mergeSort_flatten htotal htrans groups n

end SearchDsl.StableSort
