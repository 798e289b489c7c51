import SearchDsl.Proofs.Cluster.Requests

/-!
# `SearchDsl.Proofs.Query.Window`: which searches exceed the result window

Offset and limit are numbers of 64 bits, and so is the greatest window that a configuration allows.
Their sum may need another bit. A sum that does is taken for the greatest number of 64 bits
(`Query.window`), which is beyond every allowed window but one: where the allowed window is that
very number, no sum is ever found to exceed it (`Query.window_le_iff`).

`Query.body_refused_iff` says so of the bodies of searches. The window is also the only reason to
refuse the arguments of a search, for a clause that does not render is misplaced, which is another
error (`Predicate.misplaced_of_build`).
-/

set_option autoImplicit false

namespace SearchDsl.Query

/-! ### Sums of 64-bit numbers -/

/-- The sum is within a bound as far as it can be represented, or the bound is the greatest
number. -/
theorem window_le_iff {offset limit bound : UInt64} :
    window offset limit ≤ bound.toNat ↔
      offset.toNat + limit.toNat ≤ bound.toNat ∨ bound.toNat = UInt64.size - 1 := by
  have hbound := bound.toNat_lt_size
  unfold window
  omega

/-- The sum exceeds a bound, and is seen to unless the bound is the greatest number. -/
theorem lt_window_iff {offset limit bound : UInt64} :
    bound.toNat < window offset limit ↔
      bound.toNat < offset.toNat + limit.toNat ∧ bound.toNat ≠ UInt64.size - 1 := by
  rw [← not_le, window_le_iff, not_or, not_le]

/-! ### Refused searches -/

section Body

variable (query : Query) (dialect : Dialect) {config : ClusterConfig} {offset : UInt64}
  {limit : Option UInt64}

/-- A search beyond the window is refused before its query is looked at. -/
theorem body_of_lt_window
    (h : config.maxResultWindow.toNat < window offset (limit.getD config.defaultLimit)) :
    query.body dialect config offset limit
      = .error (.argument (.windowExceeded (window offset (limit.getD config.defaultLimit))
          config.maxResultWindow.toNat)) := by
  unfold body
  rw [if_pos h]
  rfl

/-- A search inside the window has a body if its query has a clause, and fails as the clause
does. -/
theorem body_of_window_le
    (h : window offset (limit.getD config.defaultLimit) ≤ config.maxResultWindow.toNat) :
    ((∃ body, query.body dialect config offset limit = .ok body) ↔
        ∃ clause, query.clause = .ok clause) ∧
      ∀ e, query.body dialect config offset limit = .error e ↔ query.clause = .error e := by
  unfold body
  rw [if_neg (not_lt.mpr h)]
  cases hclause : query.clause with
  | ok clause => exact ⟨iff_of_true ⟨_, rfl⟩ ⟨clause, rfl⟩, fun e => iff_of_false nofun nofun⟩
  | error e => exact ⟨iff_of_false nofun nofun, fun e' => Iff.rfl⟩

end Body

/-- The arguments of a search are refused exactly if the sum of offset and limit exceeds the
greatest window and that is not the greatest number of 64 bits. The error then names the sum, as far
as it can be represented, and the window. All other searches have a body if their query has a
clause. -/
theorem body_refused_iff (query : Query) (dialect : Dialect) (config : ClusterConfig)
    (offset : UInt64) (limit : Option UInt64) :
    let sum := offset.toNat + (limit.getD config.defaultLimit).toNat
    let greatest := config.maxResultWindow.toNat
    (∀ cause, query.body dialect config offset limit = .error (.argument cause) ↔
      (greatest < sum ∧ greatest ≠ UInt64.size - 1) ∧
        cause = .windowExceeded (min sum (UInt64.size - 1)) greatest) ∧
    ((∃ body, query.body dialect config offset limit = .ok body) ↔
      (sum ≤ greatest ∨ greatest = UInt64.size - 1) ∧ ∃ clause, query.clause = .ok clause) := by
  intro sum greatest
  by_cases hwindow : greatest < window offset (limit.getD config.defaultLimit)
  · have hexceeds := lt_window_iff.mp hwindow
    have hinside : ¬(sum ≤ greatest ∨ greatest = UInt64.size - 1) :=
      fun h => not_le.mpr hwindow (window_le_iff.mpr h)
    rw [body_of_lt_window query dialect hwindow]
    refine ⟨fun cause => ⟨fun h => ⟨hexceeds, ?_⟩, ?_⟩, iff_of_false nofun fun h => hinside h.1⟩
    · exact (Error.argument.inj (Except.error.inj h)).symm
    · rintro ⟨-, rfl⟩
      rfl
  · have hexceeds := lt_window_iff.not.mp hwindow
    have hinside := window_le_iff.mp (not_lt.mp hwindow)
    obtain ⟨hrenders, hfails⟩ := body_of_window_le query dialect (not_lt.mp hwindow)
    refine ⟨fun cause => iff_of_false (fun hbody => ?_) fun h => hexceeds h.1,
      hrenders.trans (and_iff_right hinside).symm⟩
    -- The clause may still fail, but no argument is refused then.
    obtain ⟨expected, paths, heq⟩ :=
      Predicate.misplaced_of_build query.predicate ((hfails _).mp hbody)
    exact Error.noConfusion heq

/-- One hit after the last offset, in a valid configuration that allows the greatest window: the sum
exceeds the window, and the search has a body. -/
theorem body_beyond_greatest_window :
    let config : ClusterConfig := { maxResultWindow := 18446744073709551615 }
    ∃ query body, config.validate = .ok () ∧
      create Scope.twoLevels none [] [.score] [] = .ok query ∧
      config.maxResultWindow.toNat
        < (18446744073709551615 : UInt64).toNat + ((some 1).getD config.defaultLimit).toNat ∧
      query.body .v7 config 18446744073709551615 (some 1) = .ok body :=
  ⟨_, _, rfl, rfl, by decide, rfl⟩

end SearchDsl.Query
