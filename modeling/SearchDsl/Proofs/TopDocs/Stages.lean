import SearchDsl.Proofs.Steps
import SearchDsl.Proofs.TopDocs.Ranking

/-!
# `SearchDsl.Proofs.TopDocs.Stages`: merging what was merged

Shards can be merged group by group, and the results once more. `mergeStages_eq_merge` says that
this comes to the same as merging all shards at once.

The results of the first stage are shards like others (`merge_of_ranked`): they are sorted, but hits
that the criteria do not tell apart stand in the order of their shards, whatever their own
positions. For the second stage the position of a shard is that of its group. Neither matters, as
merging is a stable sort, and the first hits of all are found by sorting the first hits of each
part, see `SearchDsl.Proofs.TopDocs.StableSort`.
-/

set_option autoImplicit false

namespace SearchDsl

open Steps

namespace Hit

variable {keys : List RankingKey}

/-- The hit has a sort value for each criterion. It may have none where no criterion reads them. -/
def HasValues (keys : List RankingKey) (hit : Hit) : Prop :=
  hit.values.length = keys.length ∨ hit.values = [] ∧ ∀ key ∈ keys, key.readsValues = false

/-- The hit apart from the position of its shard. -/
def unplaced (hit : Hit) : Hit := { hit with shard := 0 }

/-- The criteria do not look at the position of the shard. -/
theorem inOrder_unplaced (a b : Hit) : a.unplaced.inOrder keys b.unplaced = a.inOrder keys b :=
  TopDocs.inOrder_with_shard keys a b 0 0

end Hit

namespace TopDocs

variable {keys : List RankingKey} {shards : List TopDocs}

/-! ### The check of the hits -/

/-- A hit passes if it has its sort values. -/
theorem checkValues_eq_ok_iff {position : Nat} {hit : Hit} :
    checkValues keys position hit = .ok () ↔ hit.HasValues keys := by
  have hunread : ¬keys.any RankingKey.readsValues ↔ ∀ key ∈ keys, key.readsValues = false := by
    simp
  simp only [checkValues]
  by_cases hbad : hit.values.length ≠ keys.length ∧
      (keys.any RankingKey.readsValues ∨ 0 < hit.values.length)
  · rw [if_pos hbad]
    refine ⟨fun herror => by simp at herror, ?_⟩
    rintro (hcount | ⟨hnone, hkeys⟩)
    · exact absurd hcount hbad.1
    · -- There are no values, so the number is wrong because some criterion reads them.
      have hreads : keys.any RankingKey.readsValues := hbad.2.resolve_right (by simp [hnone])
      exact absurd hreads (hunread.mpr hkeys)
  · rw [if_neg hbad]
    refine ⟨fun _ => ?_, fun _ => rfl⟩
    by_cases hcount : hit.values.length = keys.length
    · exact .inl hcount
    · obtain ⟨hreads, hnone⟩ := not_or.mp fun hneeded => hbad ⟨hcount, hneeded⟩
      exact .inr ⟨List.length_eq_zero_iff.mp (Nat.eq_zero_of_not_pos hnone), hunread.mp hreads⟩

/-- Shards pass if all of their hits have their sort values. -/
theorem checkShards_eq_ok_iff {position : Nat} :
    checkShards keys position shards = .ok () ↔
      ∀ shard ∈ shards, ∀ hit ∈ shard.hits, hit.HasValues keys := by
  induction shards generalizing position with
  | nil => exact ⟨fun _ _ hshard => absurd hshard List.not_mem_nil, fun _ => rfl⟩
  | cons shard shards ih =>
      have hhits : shard.hits.forM (checkValues keys position) = .ok () ↔
          ∀ hit ∈ shard.hits, hit.HasValues keys := by
        simp only [forM_eq_ok_iff, checkValues_eq_ok_iff]
      rw [checkShards, check_eq_ok_iff, hhits, ih, List.forall_mem_cons]

/-- A hit without its sort values stops merging. -/
theorem exists_merge_eq_error {keys : Option (List RankingKey)} (size : Nat) {shard : TopDocs}
    (hshard : shard ∈ shards) {hit : Hit} (hhit : hit ∈ shard.hits)
    (h : ¬hit.HasValues (keys.getD defaultKeys)) : ∃ e, merge keys size shards = .error e := by
  cases hcheck : checkShards (keys.getD defaultKeys) 0 shards with
  | ok _ => exact absurd (checkShards_eq_ok_iff.mp hcheck shard hshard hit hhit) h
  | error e =>
      refine ⟨e, ?_⟩
      simp only [merge, mergePage]
      rw [hcheck]
      rfl

/-! ### One stage -/

/-- What merging expects of a shard: its hits have their sort values, no criterion reads a negative
zero, and the hits are in the order of the criteria. -/
structure Ranked (keys : List RankingKey) (shard : TopDocs) : Prop where
  values : ∀ hit ∈ shard.hits, hit.HasValues keys
  clean : ∀ hit ∈ shard.hits, hit.NoNegativeZero keys
  sorted : shard.hits.IsChain fun a b => a.inOrder keys b

/-- All hits, shard by shard, apart from the positions of the shards. -/
def unplacedHits (shards : List TopDocs) : List Hit :=
  shards.flatMap fun shard => shard.hits.map Hit.unplaced

/-- The hits to merge are those of the shards, apart from their positions. -/
theorem map_unplaced_pooled (shards : List TopDocs) :
    (pooled shards).map Hit.unplaced = unplacedHits shards := by
  have htagged : ∀ position,
      (taggedFrom position shards).flatten.map Hit.unplaced = unplacedHits shards := by
    induction shards with
    | nil => exact fun _ => rfl
    | cons shard shards ih =>
        intro position
        have hown : (shard.tagged position).map Hit.unplaced = shard.hits.map Hit.unplaced :=
          List.map_map
        rw [taggedFrom, List.flatten_cons, List.map_append, hown, ih, unplacedHits, unplacedHits,
          List.flatMap_cons]
  rw [← flatten_taggedFrom, htagged]

/-- The hits of all shards are hits of the shards but for the position. -/
theorem exists_of_mem_pooled {hit : Hit} (h : hit ∈ pooled shards) :
    ∃ shard ∈ shards, ∃ source ∈ shard.hits, ∃ i, hit = { source with shard := i } := by
  obtain ⟨shard, hshard, source, hsource, heq⟩ := mem_pooled_iff.mp h
  exact ⟨shard, List.mem_of_getElem? hshard, source, hsource, hit.shard, heq⟩

/-- Merging shards gives a shard again, with the first hits of the stable sort. -/
theorem merge_of_ranked {keys : Option (List RankingKey)} {size : Nat} (hsize : size < 2 ^ 64)
    (h : ∀ shard ∈ shards, Ranked (keys.getD defaultKeys) shard) :
    ∃ merged, merge keys size shards = .ok merged ∧ Ranked (keys.getD defaultKeys) merged ∧
      merged.total = (shards.map total).sum ∧
      merged.hits.map Hit.unplaced
        = ((unplacedHits shards).mergeSort (Hit.inOrder (keys.getD defaultKeys))).take size := by
  have hvalid : checkShards (keys.getD defaultKeys) 0 shards = .ok () :=
    checkShards_eq_ok_iff.mpr fun shard hshard => (h shard hshard).values
  have hranking : ranking (keys.getD defaultKeys) shards
      = (pooled shards).mergeSort (Hit.inOrder (keys.getD defaultKeys)) :=
    ranking_eq_mergeSort (fun shard hshard => (h shard hshard).sorted)
      fun shard hshard => (h shard hshard).clean
  have hmerge : merge keys size shards = .ok ⟨(shards.map total).sum,
      ((pooled shards).mergeSort (Hit.inOrder (keys.getD defaultKeys))).take size⟩ := by
    rw [merge, mergePage_eq_ok hvalid (.inl (by omega)), hranking, List.drop_zero]
  -- Sort values do not change with the position of the shard.
  have hpooled : ∀ hit ∈ pooled shards,
      hit.HasValues (keys.getD defaultKeys) ∧ hit.NoNegativeZero (keys.getD defaultKeys) := by
    intro hit hhit
    obtain ⟨shard, hshard, source, hsource, i, rfl⟩ := exists_of_mem_pooled hhit
    exact ⟨(h shard hshard).values source hsource, (h shard hshard).clean source hsource⟩
  have hkept : ∀ hit ∈ ((pooled shards).mergeSort (Hit.inOrder (keys.getD defaultKeys))).take size,
      hit ∈ pooled shards := fun hit hhit => List.mem_mergeSort.mp (List.mem_of_mem_take hhit)
  refine ⟨_, hmerge, ⟨?_, ?_, ?_⟩, rfl, ?_⟩
  · exact fun hit hhit => (hpooled hit (hkept hit hhit)).1
  · exact fun hit hhit => (hpooled hit (hkept hit hhit)).2
  · have hsorted := StableSort.pairwise_mergeSort (Hit.inOrder_consistent _)
      fun hit hhit => (hpooled hit hhit).2
    exact (hsorted.sublist (List.take_sublist _ _)).isChain
  · rw [List.map_take, List.map_mergeSort fun a _ b _ => (Hit.inOrder_unplaced a b).symm,
      map_unplaced_pooled]

/-! ### Two stages -/

/-- Merges each group of shards and then what they were merged to, with as many hits each time. -/
def mergeStages (keys : Option (List RankingKey)) (size : Nat) (groups : List (List TopDocs)) :
    Except Error TopDocs := do
  let merged ← groups.mapM (merge keys size)
  merge keys size merged

/-- The first stage makes one shard of each group. -/
theorem mapM_merge_of_ranked {keys : Option (List RankingKey)} {size : Nat} (hsize : size < 2 ^ 64)
    {groups : List (List TopDocs)}
    (h : ∀ group ∈ groups, ∀ shard ∈ group, Ranked (keys.getD defaultKeys) shard) :
    ∃ merged, groups.mapM (merge keys size) = .ok merged ∧
      (∀ shard ∈ merged, Ranked (keys.getD defaultKeys) shard) ∧
      (merged.map total).sum = (groups.flatten.map total).sum ∧
      unplacedHits merged = groups.flatMap fun group =>
        ((unplacedHits group).mergeSort (Hit.inOrder (keys.getD defaultKeys))).take size := by
  induction groups with
  | nil => exact ⟨[], rfl, fun _ hshard => absurd hshard List.not_mem_nil, rfl, rfl⟩
  | cons group groups ih =>
      obtain ⟨hgroup, hgroups⟩ := List.forall_mem_cons.mp h
      obtain ⟨first, hfirst, hranked, htotal, hhits⟩ := merge_of_ranked hsize hgroup
      obtain ⟨others, hothers, hrankeds, htotals, hhitss⟩ := ih hgroups
      refine ⟨first :: others, ?_, List.forall_mem_cons.mpr ⟨hranked, hrankeds⟩, ?_, ?_⟩
      · rw [List.mapM_cons, hfirst, hothers]
        rfl
      · rw [List.map_cons, List.sum_cons, htotal, htotals, List.flatten_cons, List.map_append,
          List.sum_append]
      · rw [unplacedHits, List.flatMap_cons, hhits, List.flatMap_cons, ← hhitss]
        rfl

/-- The hits of all groups are those of each of them, in order. -/
theorem unplacedHits_flatten (groups : List (List TopDocs)) :
    unplacedHits groups.flatten = (groups.map unplacedHits).flatten := by
  induction groups with
  | nil => rfl
  | cons group groups ih =>
      rw [List.flatten_cons, List.map_cons, List.flatten_cons, ← ih]
      exact List.flatMap_append

/-- No criterion reads a negative zero from the hits of ranked shards. -/
theorem clean_unplacedHits (h : ∀ shard ∈ shards, Ranked keys shard) :
    ∀ hit ∈ unplacedHits shards, hit.NoNegativeZero keys := by
  intro hit hhit
  obtain ⟨shard, hshard, hmem⟩ := List.mem_flatMap.mp hhit
  obtain ⟨source, hsource, rfl⟩ := List.mem_map.mp hmem
  exact (h shard hshard).clean source hsource

/-- Merging in stages is merging at once. Where all shards are ranked by the criteria, merging
groups of them first, and keeping as many hits of each group as of all in the end, gives the same
total and the same hits. Only the positions of their shards differ: after two stages they are those
of the groups. Where any hit lacks its sort values, neither succeeds. -/
theorem mergeStages_eq_merge (keys : Option (List RankingKey)) {size : Nat} (hsize : size < 2 ^ 64)
    (groups : List (List TopDocs)) :
    ((∀ group ∈ groups, ∀ shard ∈ group, Ranked (keys.getD defaultKeys) shard) →
      ∃ staged whole, mergeStages keys size groups = .ok staged ∧
        merge keys size groups.flatten = .ok whole ∧ staged.total = whole.total ∧
        staged.hits.map Hit.unplaced = whole.hits.map Hit.unplaced) ∧
      ∀ group ∈ groups, ∀ shard ∈ group, ∀ hit ∈ shard.hits,
        ¬hit.HasValues (keys.getD defaultKeys) →
          (∃ e, mergeStages keys size groups = .error e) ∧
            ∃ e, merge keys size groups.flatten = .error e := by
  constructor
  · intro h
    obtain ⟨merged, hmerged, hranked, htotals, hhits⟩ := mapM_merge_of_ranked hsize h
    have hflatten : ∀ shard ∈ groups.flatten, Ranked (keys.getD defaultKeys) shard := by
      intro shard hshard
      obtain ⟨group, hgroup, hmem⟩ := List.mem_flatten.mp hshard
      exact h group hgroup shard hmem
    obtain ⟨staged, hstaged, -, hstagedTotal, hstagedHits⟩ := merge_of_ranked hsize hranked
    obtain ⟨whole, hwhole, -, hwholeTotal, hwholeHits⟩ := merge_of_ranked hsize hflatten
    refine ⟨staged, whole, bind_eq_ok_iff.mpr ⟨merged, hmerged, hstaged⟩, hwhole, ?_, ?_⟩
    · rw [hstagedTotal, htotals, hwholeTotal]
    · have hclean : ∀ hits ∈ groups.map unplacedHits, ∀ hit ∈ hits,
          hit.NoNegativeZero (keys.getD defaultKeys) := by
        intro hits hhits
        obtain ⟨group, hgroup, rfl⟩ := List.mem_map.mp hhits
        exact clean_unplacedHits (h group hgroup)
      -- The second stage sorts the first hits of the sorted groups.
      have hparts := StableSort.Consistent.take_mergeSort_flatten
        (Hit.inOrder_consistent (keys.getD defaultKeys)) hclean size
      rw [List.flatMap_map] at hparts
      rw [hstagedHits, hhits, hparts, hwholeHits, unplacedHits_flatten]
  · intro group hgroup shard hshard hit hhit hvalues
    obtain ⟨e, hgroupError⟩ := exists_merge_eq_error size hshard hhit hvalues
    have hmem : shard ∈ groups.flatten := List.mem_flatten.mpr ⟨group, hgroup, hshard⟩
    refine ⟨?_, exists_merge_eq_error size hmem hhit hvalues⟩
    -- The first stage succeeds only if it does for every group.
    cases hfirst : groups.mapM (merge keys size) with
    | ok merged =>
        obtain ⟨result, hresult⟩ := exists_of_mapM_eq_ok hfirst hgroup
        simp [hgroupError] at hresult
    | error e' => exact ⟨e', bind_eq_error_iff.mpr (.inl hfirst)⟩

/-- Two groups with ties within a shard, between shards and between groups. The hits that are tied
are in no order of positions. -/
def tiedGroups : List (List TopDocs) :=
  let score : Single := .nan .binary32 false
  [[⟨3, [⟨7, score, 0, [.long 0]⟩, ⟨2, score, 0, [.positiveZero]⟩]⟩,
      ⟨4, [⟨9, score, 0, [.long (-1)]⟩]⟩],
    [⟨2, [⟨5, score, 0, [.long (-1)]⟩, ⟨1, score, 0, [.positiveZero]⟩]⟩]]

/-- A shard with a hit that has no sort value. -/
def unvaluedShard : TopDocs := ⟨1, [⟨0, .nan .binary32 false, 0, []⟩]⟩

/-- Ties come out alike in stages and all at once, and a hit without its sort value stops the first
stage. -/
theorem mergeStages_tiedGroups :
    (∀ group ∈ tiedGroups, ∀ shard ∈ group, Ranked [.field false true] shard) ∧
      (∃ staged whole, mergeStages (some [.field false true]) 2 tiedGroups = .ok staged ∧
        merge (some [.field false true]) 2 tiedGroups.flatten = .ok whole ∧
        staged.total = whole.total ∧
        staged.hits.map Hit.unplaced = whole.hits.map Hit.unplaced) ∧
      (∃ e, mergeStages (some [.field false true]) 2 [[unvaluedShard]] = .error e) := by
  have hcounts : ∀ group ∈ tiedGroups, ∀ shard ∈ group, ∀ hit ∈ shard.hits,
      hit.values.length = 1 ∧ SortValue.negativeZero ∉ hit.values := by decide
  have hsorted : ∀ group ∈ tiedGroups, ∀ shard ∈ group,
      shard.hits.IsChain fun a b => a.inOrder [.field false true] b := by decide +kernel
  have hranked : ∀ group ∈ tiedGroups, ∀ shard ∈ group, Ranked [.field false true] shard := by
    intro group hgroup shard hshard
    refine ⟨fun hit hhit => .inl (hcounts group hgroup shard hshard hit hhit).1, fun hit hhit => ?_,
      hsorted group hgroup shard hshard⟩
    exact Hit.noNegativeZero_of_not_mem (hcounts group hgroup shard hshard hit hhit).2
  have hunvalued : ¬Hit.HasValues [.field false true] ⟨0, .nan .binary32 false, 0, []⟩ := by
    simp [Hit.HasValues, RankingKey.readsValues]
  have hsize : 2 < 2 ^ 64 := by decide
  refine ⟨hranked, (mergeStages_eq_merge (some [.field false true]) hsize tiedGroups).1 hranked, ?_⟩
  exact ((mergeStages_eq_merge (some [.field false true]) hsize [[unvaluedShard]]).2 _
    List.mem_cons_self _ List.mem_cons_self _ List.mem_cons_self hunvalued).1

end TopDocs

end SearchDsl
