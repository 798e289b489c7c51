import SearchDsl.Proofs.TopDocs.HitOrder
import SearchDsl.Proofs.TopDocs.Pages
import SearchDsl.Proofs.TopDocs.StableSort

/-!
# `SearchDsl.Proofs.TopDocs.Ranking`: merging shards is sorting all their hits

`mergePage_eq_mergeSort`: when each shard lists its hits in the order of the criteria, merging gives
a page of the stable sort of all hits, shard by shard.

While sorted shards are merged, what is left of them is sorted and the queue is a heap (`Merging`).
The hit that comes out of the queue is first in the sorted remainder (`Merging.step`), so the
ranking is the sorted list (`Merging.rankFrom_eq`), and a page is a part of it as of every ranking.

The order has to be transitive for this, so no criterion may read a negative zero, see
`Hit.order_preorder_but_zeros`.
-/

set_option autoImplicit false

namespace SearchDsl

open Queue (Consistent IsHeap)

namespace Hit

/-- The criteria do not rank the first hit after the second. -/
def inOrder (keys : List RankingKey) (a b : Hit) : Bool :=
  (RankingKey.orderHits a b keys a.values b.values).isLE

/-- No criterion that reads sort values reads a negative zero. -/
def NoNegativeZero (keys : List RankingKey) (hit : Hit) : Prop :=
  ∀ (i : Nat) (key : RankingKey), keys[i]? = some key → key.readsValues →
    hit.values[i]? ≠ some SortValue.negativeZero

variable {keys : List RankingKey} {a b c : Hit}

/-- No criterion reads a negative zero if the hit has none. -/
theorem noNegativeZero_of_not_mem {hit : Hit} (h : SortValue.negativeZero ∉ hit.values) :
    hit.NoNegativeZero keys :=
  fun _ _ _ _ hvalue => h (List.mem_of_getElem? hvalue)

/-- Without negative zeros the three zeros do not meet. -/
theorem not_zerosMeet (ha : a.NoNegativeZero keys) (hb : b.NoNegativeZero keys)
    (hc : c.NoNegativeZero keys) : ¬RankingKey.ZerosMeet keys a.values b.values c.values := by
  rintro ⟨i, key, hkey, hreads, hperm⟩
  have hnot : ∀ {hit : Hit}, hit.NoNegativeZero keys →
      SortValue.negativeZero ≠ hit.values.getD i .missing := by
    intro hit hclean heq
    exact hclean i key hkey hreads (RankingKey.getElem?_of_getD_eq heq.symm SortValue.noConfusion)
  have hmem := hperm.mem_iff.mpr (show SortValue.negativeZero ∈ SortValue.zeros by
    simp [SortValue.zeros])
  simp only [List.mem_cons, List.not_mem_nil, or_false] at hmem
  rcases hmem with heq | heq | heq
  · exact hnot ha heq
  · exact hnot hb heq
  · exact hnot hc heq

/-- The criteria are consistent among hits without negative zeros. -/
theorem inOrder_consistent (keys : List RankingKey) :
    Consistent (inOrder keys) (NoNegativeZero keys) where
  total a b _ _ := by
    unfold inOrder
    rw [RankingKey.orderHits_swap a b]
    cases RankingKey.orderHits a b keys a.values b.values <;> simp
  trans a b c ha hb hc hab hbc :=
    (RankingKey.coherent_orderHits a b c keys (not_zerosMeet ha hb hc)).isLE hab hbc

/-- The ranking order is consistent among cursors at hits without negative zeros. -/
theorem noLater_consistent (keys : List RankingKey) :
    Consistent (Cursor.noLater keys) (fun cursor => cursor.next.NoNegativeZero keys) where
  total a b _ _ := by
    unfold Cursor.noLater
    rw [order_swap keys a.next b.next]
    cases a.next.order keys b.next <;> simp
  trans a b c ha hb hc hab hbc := (coherent_order (not_zerosMeet ha hb hc)).isLE hab hbc

/-- A hit that may be ranked before one of an earlier shard comes strictly before it. -/
theorem not_inOrder_of_shard_lt (h : (a.order keys b).isLE) (hshard : b.shard < a.shard) :
    inOrder keys b a = false := by
  unfold inOrder
  rw [RankingKey.orderHits_swap a b]
  unfold order at h
  rw [Nat.compare_eq_gt.mpr hshard] at h
  cases horder : RankingKey.orderHits a b keys a.values b.values with
  | lt => rfl
  | eq => simp [horder] at h
  | gt => simp [horder] at h

/-- A hit that is not ranked after another one is not put after it by the criteria either. -/
theorem inOrder_of_order (h : (a.order keys b).isLE) : inOrder keys a b := by
  unfold order at h
  exact (Ordering.isLE_then_iff_and.mp h).1

end Hit

namespace TopDocs

variable {keys : List RankingKey} {queue others : Queue Cursor} {cursor : Cursor}
  {lists before after : List (List Hit)}

/-! ### The queue and what is left of the shards -/

/-- What is left of the shards, while the queue holds a cursor for each part that is not empty. -/
structure Merging (keys : List RankingKey) (queue : Queue Cursor) (lists : List (List Hit)) :
    Prop where
  clean : ∀ hits ∈ lists, ∀ hit ∈ hits, hit.NoNegativeZero keys
  sorted : ∀ hits ∈ lists, hits.Pairwise fun a b => a.inOrder keys b
  byShard : lists.Pairwise fun earlier later => ∀ a ∈ earlier, ∀ b ∈ later, a.shard < b.shard
  heap : IsHeap (Cursor.noLater keys) queue.items
  cursors : Holds queue lists

namespace Merging

/-- No criterion reads a negative zero from a hit that is next. -/
theorem clean_next (h : Merging keys queue lists) :
    ∀ cursor ∈ queue.toList, cursor.next.NoNegativeZero keys := fun _ hmem =>
  h.clean _ (h.cursors.exists_of_mem hmem) _ List.mem_cons_self

/-- The hit that comes out is not ranked after the first hit of any other part. -/
theorem order_head (h : Merging keys queue lists)
    (hpop : queue.pop? (Cursor.noLater keys) = some (cursor, others))
    (hothers : Holds others (before ++ after)) {head : Hit}
    {tail : List Hit} (hmem : head :: tail ∈ before ++ after) :
    (cursor.next.order keys head).isLE := by
  have hcursor : (⟨head, tail⟩ : Cursor) ∈ others.toList :=
    hothers.mem_iff.mpr (List.mem_filterMap.mpr ⟨_, hmem, rfl⟩)
  exact Queue.noLater_of_pop? (Hit.noLater_consistent keys) h.clean_next h.heap hpop hcursor

/-- All that is left of earlier shards comes strictly after the hit that comes out. -/
theorem not_inOrder_before (h : Merging keys queue lists)
    (hpop : queue.pop? (Cursor.noLater keys) = some (cursor, others))
    (hsplit : lists = before ++ (cursor.next :: cursor.rest) :: after)
    (hothers : Holds others (before ++ after)) :
    ∀ hit ∈ before.flatten, hit.inOrder keys cursor.next = false := by
  intro hit hhit
  obtain ⟨hits, hhits, hmem⟩ := List.mem_flatten.mp hhit
  have hlists : hits ∈ lists := hsplit ▸ List.mem_append_left _ hhits
  cases hits with
  | nil => simp at hmem
  | cons head tail =>
      have hshard : head.shard < cursor.next.shard := by
        have hpairwise := h.byShard
        rw [hsplit, List.pairwise_append] at hpairwise
        exact hpairwise.2.2 _ hhits _ List.mem_cons_self _ List.mem_cons_self _ List.mem_cons_self
      have hhead := Hit.not_inOrder_of_shard_lt
        (h.order_head hpop hothers (List.mem_append_left _ hhits)) hshard
      rcases List.mem_cons.mp hmem with rfl | htail
      · exact hhead
      · have hsorted := (List.pairwise_cons.mp (h.sorted _ hlists)).1 hit htail
        have hcursor : cursor.next.NoNegativeZero keys :=
          h.clean_next _ ((Queue.toList_pop? _ hpop).mem_iff.mpr List.mem_cons_self)
        -- If a later hit of the part came first, so would the head of the part before it.
        rw [Bool.eq_false_iff] at hhead ⊢
        intro hfirst
        exact hhead ((Hit.inOrder_consistent keys).trans _ _ _
          (h.clean _ hlists _ List.mem_cons_self) (h.clean _ hlists _ hmem) hcursor hsorted hfirst)

/-- All that is left after the hit that comes out, of its own shard and of later ones, does not come
before it. -/
theorem inOrder_after (h : Merging keys queue lists)
    (hpop : queue.pop? (Cursor.noLater keys) = some (cursor, others))
    (hsplit : lists = before ++ (cursor.next :: cursor.rest) :: after)
    (hothers : Holds others (before ++ after)) :
    ∀ hit ∈ cursor.rest ++ after.flatten, cursor.next.inOrder keys hit := by
  intro hit hhit
  have hown : cursor.next :: cursor.rest ∈ lists := by simp [hsplit]
  rcases List.mem_append.mp hhit with hrest | hlater
  · exact (List.pairwise_cons.mp (h.sorted _ hown)).1 hit hrest
  · obtain ⟨hits, hhits, hmem⟩ := List.mem_flatten.mp hlater
    have hlists : hits ∈ lists := by simp [hsplit, hhits]
    cases hits with
    | nil => simp at hmem
    | cons head tail =>
        have hhead := Hit.inOrder_of_order
          (h.order_head hpop hothers (List.mem_append_right _ hhits))
        rcases List.mem_cons.mp hmem with rfl | htail
        · exact hhead
        · exact (Hit.inOrder_consistent keys).trans _ _ _
            (h.clean _ hown _ List.mem_cons_self) (h.clean _ hlists _ List.mem_cons_self)
            (h.clean _ hlists _ hmem) hhead
            ((List.pairwise_cons.mp (h.sorted _ hlists)).1 hit htail)

/-- After a hit came out, what is left of its shard is in the queue again. -/
theorem requeue (h : Merging keys queue lists)
    (hpop : queue.pop? (Cursor.noLater keys) = some (cursor, others))
    (hsplit : lists = before ++ (cursor.next :: cursor.rest) :: after)
    (hothers : Holds others (before ++ after)) :
    Merging keys (requeue keys others cursor.rest) (before ++ cursor.rest :: after) := by
  have hperm := Queue.toList_pop? _ hpop
  have hconsistent := Hit.noLater_consistent keys
  have hheap := Queue.pop?_isHeap hconsistent h.clean_next h.heap hpop
  have hclean : ∀ c ∈ others.toList, c.next.NoNegativeZero keys := fun c hmem =>
    h.clean_next c (hperm.mem_iff.mpr (List.mem_cons_of_mem _ hmem))
  -- Every part is, or ends, a part of the lists before.
  have hpart : ∀ hits ∈ before ++ cursor.rest :: after, ∃ whole ∈ lists, hits.Sublist whole := by
    intro hits hhits
    rw [hsplit]
    rcases List.mem_append.mp hhits with hbefore | hrest
    · exact ⟨hits, List.mem_append_left _ hbefore, List.Sublist.refl _⟩
    · rcases List.mem_cons.mp hrest with rfl | hafter
      · exact ⟨cursor.next :: cursor.rest, by simp, List.sublist_cons_self _ _⟩
      · exact ⟨hits, by simp [hafter], List.Sublist.refl _⟩
  constructor
  · intro hits hhits hit hhit
    obtain ⟨whole, hwhole, hsub⟩ := hpart hits hhits
    exact h.clean whole hwhole hit (hsub.subset hhit)
  · intro hits hhits
    obtain ⟨whole, hwhole, hsub⟩ := hpart hits hhits
    exact (h.sorted whole hwhole).sublist hsub
  · -- The part of the cursor gets shorter and keeps its place among the shards.
    have hbyShard := h.byShard
    rw [hsplit, List.pairwise_append, List.pairwise_cons] at hbyShard
    obtain ⟨hbefore, ⟨hown, hafter⟩, hcross⟩ := hbyShard
    rw [List.pairwise_append, List.pairwise_cons]
    refine ⟨hbefore, ⟨fun later hlater a ha => hown later hlater a (List.mem_cons_of_mem _ ha),
      hafter⟩, fun earlier hearlier later hlater => ?_⟩
    rcases List.mem_cons.mp hlater with rfl | hlater
    · exact fun a ha b hb =>
        hcross earlier hearlier _ List.mem_cons_self a ha b (List.mem_cons_of_mem _ hb)
    · exact hcross earlier hearlier later (List.mem_cons_of_mem _ hlater)
  · -- A cursor comes back in only if its part has a hit left.
    unfold TopDocs.requeue
    cases hrest : cursor.rest with
    | nil => exact hheap
    | cons hit rest =>
        have hown : cursor.next :: cursor.rest ∈ lists := by simp [hsplit]
        exact Queue.push_isHeap hconsistent others ⟨hit, rest⟩ hclean
          (h.clean _ hown hit (by simp [hrest])) hheap
  · exact hothers.requeue cursor.rest

/-- The hit that comes out is the first one in the sorted remainder, and the state after it is that
of merging what is left. -/
theorem step (h : Merging keys queue lists)
    (hpop : queue.pop? (Cursor.noLater keys) = some (cursor, others)) :
    ∃ left, Merging keys (TopDocs.requeue keys others cursor.rest) left ∧
      lists.flatten.mergeSort (Hit.inOrder keys)
        = cursor.next :: left.flatten.mergeSort (Hit.inOrder keys) := by
  obtain ⟨before, after, hsplit, hothers⟩ := h.cursors.exists_split hpop
  refine ⟨before ++ cursor.rest :: after, h.requeue hpop hsplit hothers, ?_⟩
  have hflatten : lists.flatten
      = before.flatten ++ cursor.next :: (cursor.rest ++ after.flatten) := by
    simp [hsplit]
  have hclean : ∀ hit ∈ lists.flatten, hit.NoNegativeZero keys := fun hit hhit => by
    obtain ⟨hits, hhits, hmem⟩ := List.mem_flatten.mp hhit
    exact h.clean hits hhits hit hmem
  rw [hflatten] at hclean ⊢
  rw [StableSort.mergeSort_append_cons (Hit.inOrder_consistent keys) hclean
    (h.not_inOrder_before hpop hsplit hothers) (h.inOrder_after hpop hsplit hothers)]
  simp

/-- What comes out of the queue is the sorted remainder of the shards. -/
theorem rankFrom_eq (h : Merging keys queue lists) (rank : Nat) {length : Nat}
    (hlength : lists.flatten.length ≤ length) :
    rankFrom keys 0 length rank queue = lists.flatten.mergeSort (Hit.inOrder keys) := by
  induction length generalizing rank queue lists with
  | zero => simp [rankFrom, List.length_eq_zero_iff.mp (Nat.le_zero.mp hlength)]
  | succ length ih =>
      cases hpop : queue.pop? (Cursor.noLater keys) with
      | none => simp [rankFrom, hpop, h.cursors.flatten_eq_nil hpop]
      | some popped =>
          obtain ⟨cursor, others⟩ := popped
          obtain ⟨left, hleft, hsort⟩ := h.step hpop
          -- Sorting keeps the number of hits, so one less is left.
          have hmore := congrArg List.length hsort
          rw [List.length_cons, List.length_mergeSort, List.length_mergeSort] at hmore
          have hlater := ih hleft (rank + 1) (by omega)
          simp only [rankFrom, hpop, Nat.zero_le, if_true, hlater, hsort]

end Merging

/-! ### The start of merging -/

/-- The criteria do not look at the positions of the shards. -/
theorem inOrder_with_shard (keys : List RankingKey) (a b : Hit) (i j : Nat) :
    Hit.inOrder keys { a with shard := i } { b with shard := j } = Hit.inOrder keys a b := by
  have horder : ∀ as bs : List SortValue,
      RankingKey.orderHits { a with shard := i } { b with shard := j } keys as bs
        = RankingKey.orderHits a b keys as bs := by
    induction keys with
    | nil => exact fun _ _ => rfl
    | cons key keys ih =>
        intro as bs
        unfold RankingKey.orderHits
        rw [ih]
        rfl
  exact congrArg Ordering.isLE (horder a.values b.values)

/-- The positions increase from part to part. -/
theorem taggedFrom_byShard (position : Nat) (shards : List TopDocs) :
    (taggedFrom position shards).Pairwise fun earlier later =>
      ∀ a ∈ earlier, ∀ b ∈ later, a.shard < b.shard := by
  induction shards generalizing position with
  | nil => exact .nil
  | cons shard shards ih =>
      refine List.pairwise_cons.mpr ⟨fun later hlater a ha b hb => ?_, ih (position + 1)⟩
      obtain ⟨other, -, i, hi, rfl⟩ := exists_of_mem_taggedFrom hlater
      rw [shard_eq_of_mem_tagged ha, shard_eq_of_mem_tagged hb]
      exact hi

/-- Merging starts with all hits of all shards. -/
theorem Merging.start {keys : List RankingKey} {shards : List TopDocs}
    (hsorted : ∀ shard ∈ shards, shard.hits.IsChain fun a b => a.inOrder keys b)
    (hclean : ∀ shard ∈ shards, ∀ hit ∈ shard.hits, hit.NoNegativeZero keys) :
    Merging keys (startQueue keys shards) (taggedFrom 0 shards) := by
  have hlists : ∀ hits ∈ taggedFrom 0 shards, ∀ hit ∈ hits, hit.NoNegativeZero keys := by
    intro hits hhits hit hhit
    obtain ⟨shard, hshard, i, -, rfl⟩ := exists_of_mem_taggedFrom hhits
    obtain ⟨source, hsource, rfl⟩ := List.mem_map.mp hhit
    exact hclean shard hshard source hsource
  constructor
  · exact hlists
  · intro hits hhits
    obtain ⟨shard, hshard, i, -, rfl⟩ := exists_of_mem_taggedFrom hhits
    have hpairwise := StableSort.pairwise_of_isChain (Hit.inOrder_consistent keys)
      (hclean shard hshard) (hsorted shard hshard)
    refine List.pairwise_map.mpr (hpairwise.imp fun {a b} hab => ?_)
    rw [inOrder_with_shard]
    exact hab
  · exact taggedFrom_byShard 0 shards
  · refine Queue.ofList_isHeap (Hit.noLater_consistent keys) _ fun cursor hcursor => ?_
    obtain ⟨hits, hhits, heq⟩ := List.mem_filterMap.mp hcursor
    refine hlists hits hhits cursor.next ?_
    rw [Cursor.ofList?_eq_some_iff.mp heq]
    exact List.mem_cons_self
  · exact Queue.toList_ofList _ _

/-- The ranking of sorted shards is the stable sort of all their hits. -/
theorem ranking_eq_mergeSort {keys : List RankingKey} {shards : List TopDocs}
    (hsorted : ∀ shard ∈ shards, shard.hits.IsChain fun a b => a.inOrder keys b)
    (hclean : ∀ shard ∈ shards, ∀ hit ∈ shard.hits, hit.NoNegativeZero keys) :
    ranking keys shards = (pooled shards).mergeSort (Hit.inOrder keys) := by
  have hall : (taggedFrom 0 shards).flatten.length ≤ (pooled shards).length := by
    rw [flatten_taggedFrom]
  rw [ranking, (Merging.start hsorted hclean).rankFrom_eq 0 hall, flatten_taggedFrom]

/-- The hits of a page are a part of that sort. -/
theorem rankFrom_startQueue {keys : List RankingKey} {shards : List TopDocs}
    (hsorted : ∀ shard ∈ shards, shard.hits.IsChain fun a b => a.inOrder keys b)
    (hclean : ∀ shard ∈ shards, ∀ hit ∈ shard.hits, hit.NoNegativeZero keys) {start size : Nat}
    (hfits : start + size < 2 ^ 64 ∨ (pooled shards).length < 2 ^ 64) :
    rankFrom keys start (pageEnd start size) 0 (startQueue keys shards)
      = (((pooled shards).mergeSort (Hit.inOrder keys)).drop start).take size := by
  rw [rankFrom_page keys hfits, ranking_eq_mergeSort hsorted hclean]

/-- Merging is sorting. If each shard lists its hits in the order of the criteria and the criteria
read no negative zero, the hits of a page are those of the stable sort of all hits by the criteria,
shard by shard, and the total is the sum of the totals. The end of the page or the number of all
hits has to fit into 64 bits, as it does for any hits that are in memory at once. -/
theorem mergePage_eq_mergeSort (keys : Option (List RankingKey)) (start size : Nat)
    (shards : List TopDocs) (hvalid : checkShards (keys.getD defaultKeys) 0 shards = .ok ())
    (hsorted : ∀ shard ∈ shards,
      shard.hits.IsChain fun a b => a.inOrder (keys.getD defaultKeys) b)
    (hclean : ∀ shard ∈ shards, ∀ hit ∈ shard.hits,
      hit.NoNegativeZero (keys.getD defaultKeys))
    (hfits : start + size < 2 ^ 64 ∨ (pooled shards).length < 2 ^ 64) :
    mergePage keys start size shards
        = .ok ⟨(shards.map total).sum,
            (((pooled shards).mergeSort (Hit.inOrder (keys.getD defaultKeys))).drop start).take
              size⟩ ∧
      merge keys size shards
        = .ok ⟨(shards.map total).sum,
            ((pooled shards).mergeSort (Hit.inOrder (keys.getD defaultKeys))).take size⟩ := by
  have hpage : ∀ start : Nat, (start + size < 2 ^ 64 ∨ (pooled shards).length < 2 ^ 64) →
      mergePage keys start size shards
        = .ok ⟨(shards.map total).sum,
            (((pooled shards).mergeSort (Hit.inOrder (keys.getD defaultKeys))).drop start).take
              size⟩ := by
    intro start hfits
    simp only [mergePage]
    rw [hvalid, rankFrom_startQueue hsorted hclean hfits, totalOf_eq_sum]
    rfl
  refine ⟨hpage start hfits, ?_⟩
  have hfirst := hpage 0 (hfits.imp_left fun hlt => by omega)
  rw [List.drop_zero] at hfirst
  exact hfirst

/-- Two shards with integers, a double, a text and a missing value, and with ties in no order of
positions. -/
def mixedShards : List TopDocs :=
  let one : SortValue := .double ⟨false, 1023 * 2 ^ 52, by decide⟩
  let score : Single := .nan .binary32 false
  [⟨5, [⟨7, score, 0, [.long 1]⟩, ⟨2, score, 0, [one]⟩, ⟨4, score, 0, [.missing]⟩]⟩,
    ⟨2, [⟨5, score, 0, [.long 1]⟩, ⟨1, score, 0, [.text "a"]⟩]⟩]

/-- A page from the middle, with a hit that ties with its neighbour and one from the other shard. -/
theorem mergePage_mixedShards :
    checkShards [.field false true] 0 mixedShards = .ok () ∧
      (∀ shard ∈ mixedShards, shard.hits.IsChain fun a b => a.inOrder [.field false true] b) ∧
      mergePage (some [.field false true]) 1 3 mixedShards
        = .ok ⟨7, (((pooled mixedShards).mergeSort (Hit.inOrder [.field false true])).drop 1).take
            3⟩ := by
  have hvalid : checkShards [.field false true] 0 mixedShards = .ok () := rfl
  have hsorted : ∀ shard ∈ mixedShards,
      shard.hits.IsChain fun a b => a.inOrder [.field false true] b := by decide +kernel
  have hnone : ∀ shard ∈ mixedShards, ∀ hit ∈ shard.hits,
      SortValue.negativeZero ∉ hit.values := by decide
  have hclean : ∀ shard ∈ mixedShards, ∀ hit ∈ shard.hits,
      hit.NoNegativeZero [.field false true] := fun shard hshard hit hhit =>
    Hit.noNegativeZero_of_not_mem (hnone shard hshard hit hhit)
  exact ⟨hvalid, hsorted,
    (mergePage_eq_mergeSort (some [.field false true]) 1 3 mixedShards hvalid hsorted hclean
      (.inl (by decide))).1⟩

end TopDocs

end SearchDsl
