import Mathlib.Algebra.Ring.Nat
import SearchDsl.Proofs.TopDocs.Queue
import SearchDsl.TopDocs.Merge

/-!
# `SearchDsl.Proofs.TopDocs.Cursors`: what is left of the shards while they are merged

The state of merging is the list of what is left of each shard, in the order of the shards. The
queue holds a cursor for each part that is not empty, in any layout (`Holds`). One step takes a hit
from the front of one part, and the cursor of that part comes back in, if it has a hit left.

None of this depends on which hit comes out. It is true of every order, also of one that is not
consistent, and of parts that are not sorted.
-/

set_option autoImplicit false

namespace SearchDsl

namespace Cursor

/-- The cursor over a list stands at its first hit. -/
theorem ofList?_eq_some_iff {hits : List Hit} {cursor : Cursor} :
    ofList? hits = some cursor ↔ hits = cursor.next :: cursor.rest := by
  cases hits with
  | nil => simp [ofList?]
  | cons hit rest =>
      obtain ⟨next, rest'⟩ := cursor
      simp [ofList?]

end Cursor

namespace TopDocs

variable {keys : List RankingKey} {queue others : Queue Cursor} {cursor : Cursor}
  {lists before after : List (List Hit)}

/-- All that is left is the hit at the front of one part and what is left after it. -/
theorem flatten_perm_front (before after : List (List Hit)) (hit : Hit) (rest : List Hit) :
    (before ++ (hit :: rest) :: after).flatten.Perm
      (hit :: (before ++ rest :: after).flatten) := by
  rw [List.flatten_append, List.flatten_append, List.flatten_cons, List.flatten_cons,
    List.cons_append]
  exact List.perm_middle

/-- The queue holds a cursor for each part that is not empty. -/
def Holds (queue : Queue Cursor) (lists : List (List Hit)) : Prop :=
  queue.toList.Perm (lists.filterMap Cursor.ofList?)

namespace Holds

/-- Each cursor in the queue stands at a hit of some part. -/
theorem exists_of_mem (h : Holds queue lists) (hmem : cursor ∈ queue.toList) :
    cursor.next :: cursor.rest ∈ lists := by
  obtain ⟨hits, hhits, hcursor⟩ := List.mem_filterMap.mp (h.mem_iff.mp hmem)
  exact Cursor.ofList?_eq_some_iff.mp hcursor ▸ hhits

/-- The cursor that comes out stands at the front of one part, and the queue that it leaves behind
holds the cursors of the others. -/
theorem exists_split (h : Holds queue lists)
    (hpop : queue.pop? (Cursor.noLater keys) = some (cursor, others)) :
    ∃ before after, lists = before ++ (cursor.next :: cursor.rest) :: after ∧
      Holds others (before ++ after) := by
  have hperm := Queue.toList_pop? _ hpop
  obtain ⟨before, after, rfl⟩ := List.append_of_mem
    (h.exists_of_mem (hperm.mem_iff.mpr List.mem_cons_self))
  refine ⟨before, after, rfl, ?_⟩
  -- The cursors of all parts are that of the first hit and those that stay behind.
  have hfront : (before ++ (cursor.next :: cursor.rest) :: after).filterMap Cursor.ofList?
      = before.filterMap Cursor.ofList? ++ cursor :: after.filterMap Cursor.ofList? := by
    rw [List.filterMap_append, List.filterMap_cons_some (Cursor.ofList?_eq_some_iff.mpr rfl)]
  have hcursors := hperm.symm.trans h
  rw [hfront] at hcursors
  rw [Holds, List.filterMap_append]
  exact (hcursors.trans List.perm_middle).cons_inv

/-- A cursor comes back in at its place among the parts, unless nothing is left of its part. -/
theorem requeue (h : Holds others (before ++ after)) (rest : List Hit) :
    Holds (requeue keys others rest) (before ++ rest :: after) := by
  unfold Holds TopDocs.requeue at *
  rw [List.filterMap_append] at h ⊢
  cases rest with
  | nil => exact h
  | cons hit rest =>
      have hpush := Queue.toList_push (Cursor.noLater keys) others ⟨hit, rest⟩
      exact (hpush.trans (h.cons _)).trans List.perm_middle.symm

/-- Nothing is left when the queue is empty. -/
theorem flatten_eq_nil (h : Holds queue lists)
    (hpop : queue.pop? (Cursor.noLater keys) = none) : lists.flatten = [] := by
  have hcursors : queue.toList.Perm (lists.filterMap Cursor.ofList?) := h
  rw [(Queue.pop?_eq_none_iff _ _).mp hpop] at hcursors
  have hnone := List.filterMap_eq_nil_iff.mp hcursors.nil_eq.symm
  rw [List.flatten_eq_nil_iff]
  intro hits hhits
  cases hits with
  | nil => rfl
  | cons head tail => exact absurd (hnone _ hhits) (by simp [Cursor.ofList?])

/-- A step takes one hit from the front of one part. -/
theorem step (h : Holds queue lists)
    (hpop : queue.pop? (Cursor.noLater keys) = some (cursor, others)) :
    ∃ before after, lists = before ++ (cursor.next :: cursor.rest) :: after ∧
      Holds (TopDocs.requeue keys others cursor.rest) (before ++ cursor.rest :: after) := by
  obtain ⟨before, after, hsplit, hothers⟩ := h.exists_split hpop
  exact ⟨before, after, hsplit, hothers.requeue cursor.rest⟩

end Holds

/-! ### The start of merging -/

/-- All hits, shard by shard, each with the position of its shard. -/
def pooled (shards : List TopDocs) : List Hit :=
  shards.zipIdx.flatMap fun (shard, position) => shard.hits.map fun hit =>
    { hit with shard := position }

/-- What is merged are the hits of the shards with the positions of the shards. -/
theorem mem_pooled_iff {shards : List TopDocs} {hit : Hit} : hit ∈ pooled shards ↔
    ∃ shard, shards[hit.shard]? = some shard ∧
      ∃ source ∈ shard.hits, hit = { source with shard := hit.shard } := by
  simp only [pooled, List.mem_flatMap, List.mem_map]
  constructor
  · rintro ⟨⟨shard, i⟩, hshard, source, hsource, rfl⟩
    exact ⟨shard, List.mem_zipIdx_iff_getElem?.mp hshard, source, hsource, rfl⟩
  · rintro ⟨shard, hshard, source, hsource, heq⟩
    exact ⟨⟨shard, hit.shard⟩, List.mem_zipIdx_iff_getElem?.mpr hshard, source, hsource, heq.symm⟩

/-- As many hits are merged as all shards have together. -/
theorem length_pooled (shards : List TopDocs) :
    (pooled shards).length = (shards.map fun shard => shard.hits.length).sum := by
  have hlengths : (shards.zipIdx.map fun entry => entry.1.hits.length)
      = shards.map fun shard => shard.hits.length := by
    rw [← List.zipIdx_map_fst 0 shards, List.map_map, List.zipIdx_map_fst]
    rfl
  simp only [pooled, List.length_flatMap, List.length_map, hlengths]

/-- Each of the parts comes from a shard. -/
theorem exists_of_mem_taggedFrom {position : Nat} {shards : List TopDocs} {hits : List Hit}
    (h : hits ∈ taggedFrom position shards) :
    ∃ shard ∈ shards, ∃ i, position ≤ i ∧ hits = shard.tagged i := by
  induction shards generalizing position with
  | nil => simp [taggedFrom] at h
  | cons shard shards ih =>
      rcases List.mem_cons.mp h with rfl | hrest
      · exact ⟨shard, List.mem_cons_self, position, Nat.le_refl _, rfl⟩
      · obtain ⟨other, hother, i, hi, rfl⟩ := ih hrest
        exact ⟨other, List.mem_cons_of_mem _ hother, i, by omega, rfl⟩

/-- The hits of a part have its position. -/
theorem shard_eq_of_mem_tagged {position : Nat} {shard : TopDocs} {hit : Hit}
    (h : hit ∈ shard.tagged position) : hit.shard = position := by
  obtain ⟨source, -, rfl⟩ := List.mem_map.mp h
  rfl

/-- The positions count up along the shards. -/
theorem taggedFrom_eq_map (position : Nat) (shards : List TopDocs) :
    taggedFrom position shards = (shards.zipIdx position).map fun (shard, i) => shard.tagged i := by
  induction shards generalizing position with
  | nil => rfl
  | cons shard shards ih => rw [taggedFrom, ih, List.zipIdx_cons, List.map_cons]

/-- The part at a position is made from the shard at that position. -/
theorem getElem?_taggedFrom (shards : List TopDocs) (i : Nat) :
    (taggedFrom 0 shards)[i]? = shards[i]?.map (tagged i) := by
  rw [taggedFrom_eq_map, List.getElem?_map, List.getElem?_zipIdx]
  cases shards[i]? <;> simp

/-- The parts together are all hits. -/
theorem flatten_taggedFrom (shards : List TopDocs) :
    (taggedFrom 0 shards).flatten = pooled shards := by
  rw [taggedFrom_eq_map, pooled, List.flatMap_def]
  rfl

/-- At the start nothing has been taken from the shards. -/
theorem holds_startQueue (keys : List RankingKey) (shards : List TopDocs) :
    Holds (startQueue keys shards) (taggedFrom 0 shards) :=
  Queue.toList_ofList _ _

/-- The totals of the shards add up. -/
theorem totalOf_eq_sum (shards : List TopDocs) : totalOf shards = (shards.map total).sum := by
  induction shards with
  | nil => rfl
  | cons shard others ih =>
      rw [List.map_cons, List.sum_cons, ← ih]
      rfl

end TopDocs

end SearchDsl
