/-!
# `SearchDsl.Text.Sorted`: sorted lists of distinct texts
-/

set_option autoImplicit false

namespace SearchDsl.Text

/-- The texts in increasing order. -/
def sorted (texts : List String) : List String :=
  texts.mergeSort fun a b => decide (a ≤ b)

/-- The texts in increasing order, each of them once. -/
def sortedDistinct (texts : List String) : List String :=
  (sorted texts).eraseReps

/-- Sorting neither drops nor adds a text. -/
theorem perm_sorted (texts : List String) : (sorted texts).Perm texts :=
  List.mergeSort_perm _ _

/-- Sorted texts come in the order of their characters. -/
theorem pairwise_sorted (texts : List String) : (sorted texts).Pairwise (· ≤ ·) := by
  have htrans : ∀ a b c : String, decide (a ≤ b) = true → decide (b ≤ c) = true →
      decide (a ≤ c) = true := fun a b c hab hbc =>
    decide_eq_true (String.le_trans (of_decide_eq_true hab) (of_decide_eq_true hbc))
  have htotal : ∀ a b : String, (decide (a ≤ b) || decide (b ≤ a)) = true := fun a b => by
    simpa using String.le_total a b
  exact (List.pairwise_mergeSort htrans htotal texts).imp of_decide_eq_true

/-- Distinct texts are in strictly increasing order when they are sorted. -/
theorem pairwise_lt_sorted {texts : List String} (h : texts.Nodup) :
    (sorted texts).Pairwise (· < ·) := by
  have hdistinct : (sorted texts).Nodup := (perm_sorted texts).nodup_iff.mpr h
  refine (List.pairwise_and_iff.mpr ⟨pairwise_sorted texts, hdistinct⟩).imp fun ⟨hle, hne⟩ => ?_
  exact String.not_le.mp fun hge => hne (String.le_antisymm hle hge)

/-- Only repetitions are dropped: the current text, those to come and those done are all there. -/
theorem mem_eraseReps_loop {text current : String} {coming done : List String} :
    text ∈ List.eraseRepsBy.loop (· == ·) current coming done ↔
      text = current ∨ text ∈ coming ∨ text ∈ done := by
  induction coming generalizing current done with
  | nil => simp [List.eraseRepsBy.loop, or_comm]
  | cons next coming ih =>
      rw [List.eraseRepsBy.loop]
      split
      · next heq =>
          obtain rfl : current = next := by simpa using heq
          rw [ih, List.mem_cons]
          grind
      · rw [ih, List.mem_cons, List.mem_cons]
        grind

/-- Sorting texts and leaving out repetitions keeps the set of them. -/
theorem mem_sortedDistinct {text : String} {texts : List String} :
    text ∈ sortedDistinct texts ↔ text ∈ texts := by
  rw [← (perm_sorted texts).mem_iff, sortedDistinct, List.eraseReps]
  cases sorted texts with
  | nil => rfl
  | cons first rest =>
      rw [List.eraseRepsBy, mem_eraseReps_loop, List.mem_cons]
      simp

/-- Without repetitions ordered texts increase strictly: those done are smaller than the current
one, and those to come are not. -/
theorem pairwise_lt_eraseReps_loop {current : String} {coming done : List String}
    (hdone : (current :: done).Pairwise fun later earlier => earlier < later)
    (hcoming : (current :: coming).Pairwise (· ≤ ·)) :
    (List.eraseRepsBy.loop (· == ·) current coming done).Pairwise (· < ·) := by
  induction coming generalizing current done with
  | nil => exact List.pairwise_reverse.mpr hdone
  | cons next coming ih =>
      obtain ⟨hcurrent, hrest⟩ := List.pairwise_cons.mp hcoming
      rw [List.eraseRepsBy.loop]
      split
      · exact ih hdone (List.pairwise_cons.mpr
          ⟨fun text htext => hcurrent text (List.mem_cons_of_mem _ htext), hrest.of_cons⟩)
      · next hne =>
          have hlt : current < next := String.not_le.mp fun hle =>
            beq_eq_false_iff_ne.mp hne
              (String.le_antisymm (hcurrent next List.mem_cons_self) hle)
          refine ih (List.pairwise_cons.mpr ⟨fun text htext => ?_, hdone⟩) hrest
          rcases List.mem_cons.mp htext with rfl | hearlier
          · exact hlt
          · exact String.lt_trans ((List.pairwise_cons.mp hdone).1 text hearlier) hlt

/-- Sorted texts without repetitions increase strictly. -/
theorem pairwise_lt_sortedDistinct (texts : List String) :
    (sortedDistinct texts).Pairwise (· < ·) := by
  rw [sortedDistinct, List.eraseReps]
  have hsorted := pairwise_sorted texts
  cases htexts : sorted texts with
  | nil => exact List.Pairwise.nil
  | cons first rest =>
      exact pairwise_lt_eraseReps_loop (List.pairwise_singleton _ _) (htexts ▸ hsorted)

end SearchDsl.Text
