import SearchDsl.Proofs.TopDocs.Cursors
import SearchDsl.Proofs.TopDocs.SortValue

/-!
# `SearchDsl.Proofs.TopDocs.Pages`: every page is a part of one ranking

Merging counts ranks and leaves out those before the page, and it stops at the end of the page. What
comes out of the queue does not depend on either, so there is one list of which every page is a part
(`Holds.rankFrom_window`). It takes the hits of each shard in their order and leaves none behind
(`Holds.interleaves`).

This needs nothing of the shards or of the order. Shards that are not sorted, or values whose order
is not consistent, give another ranking than sorting does, but no page that contradicts another.
-/

set_option autoImplicit false

namespace SearchDsl.TopDocs

variable {keys : List RankingKey} {queue : Queue Cursor} {lists : List (List Hit)}

/-- The hits of all shards in the order in which they come out of the queue. -/
def ranking (keys : List RankingKey) (shards : List TopDocs) : List Hit :=
  rankFrom keys 0 (pooled shards).length 0 (startQueue keys shards)

/-! ### Windows -/

/-- Ranking a part of the hits gives a part of the ranking, which has to be long enough for all that
is left. -/
theorem Holds.rankFrom_window (h : Holds queue lists) (start count rank : Nat) {length : Nat}
    (hlength : lists.flatten.length ≤ length) :
    rankFrom keys start count rank queue
      = ((rankFrom keys 0 length rank queue).take count).drop (start - rank) := by
  induction count generalizing rank queue lists length with
  | zero => simp [rankFrom]
  | succ count ih =>
      cases hpop : queue.pop? (Cursor.noLater keys) with
      | none =>
          have hnone : rankFrom keys 0 length rank queue = [] := by
            cases length <;> simp [rankFrom, hpop]
          simp [rankFrom, hpop, hnone]
      | some popped =>
          obtain ⟨cursor, others⟩ := popped
          obtain ⟨before, after, rfl, hleft⟩ := h.step hpop
          -- A hit is left, so the ranking is not over, and it goes on with the hits after it.
          have hmore := (flatten_perm_front before after cursor.next cursor.rest).length_eq
          rw [List.length_cons] at hmore
          obtain ⟨length, rfl⟩ : ∃ shorter, length = shorter + 1 :=
            Nat.exists_eq_add_one.mpr (by omega)
          have hshorter : (before ++ cursor.rest :: after).flatten.length ≤ length := by omega
          have hlater := ih hleft (rank + 1) hshorter
          simp only [rankFrom, hpop, Nat.zero_le, if_true, List.take_succ_cons, hlater]
          -- The hit is on the page, or it is the first one before the page.
          by_cases hstart : start ≤ rank
          · have hzero : start - rank = 0 := Nat.sub_eq_zero_of_le hstart
            have hzero' : start - (rank + 1) = 0 := by omega
            simp [hstart, hzero, hzero']
          · have hsucc : start - rank = start - (rank + 1) + 1 := by omega
            rw [if_neg hstart, hsucc, List.drop_succ_cons]

/-! ### The ranking and the shards -/

/-- A list takes the hits of several parts, each time from the front of one of them, until nothing
is left. -/
inductive Interleaves : List Hit → List (List Hit) → Prop
  | done {lists : List (List Hit)} (h : lists.flatten = []) : Interleaves [] lists
  | take {hit : Hit} {rest out : List Hit} {before after : List (List Hit)}
      (h : Interleaves out (before ++ rest :: after)) :
      Interleaves (hit :: out) (before ++ (hit :: rest) :: after)

/-- The hits of each part have its position. -/
def Placed (lists : List (List Hit)) : Prop :=
  ∀ (i : Nat) (hits : List Hit), lists[i]? = some hits → ∀ hit ∈ hits, hit.shard = i

/-- A change of one part leaves the parts at other positions. -/
theorem getElem?_append_cons_of_ne {before after : List (List Hit)} (part other : List Hit)
    {i : Nat} (hi : i ≠ before.length) :
    (before ++ part :: after)[i]? = (before ++ other :: after)[i]? := by
  grind

/-- Taking a hit from the front of a part leaves the parts at their positions. -/
theorem Placed.of_take {hit : Hit} {rest : List Hit} {before after : List (List Hit)}
    (h : Placed (before ++ (hit :: rest) :: after)) : Placed (before ++ rest :: after) := by
  intro i hits hi
  by_cases hpart : i = before.length
  · subst hpart
    have hrest : (before ++ rest :: after)[before.length]? = some rest := by simp
    obtain rfl := Option.some.inj (hrest.symm.trans hi)
    exact fun other hother =>
      h before.length (hit :: rest) (by simp) other (List.mem_cons_of_mem _ hother)
  · rw [getElem?_append_cons_of_ne rest (hit :: rest) hpart] at hi
    exact h i hits hi

namespace Interleaves

variable {out : List Hit}

/-- Nothing is lost when parts are interleaved, and nothing is taken twice. -/
theorem perm (h : Interleaves out lists) : out.Perm lists.flatten := by
  induction h with
  | done hnone => rw [hnone]
  | take _ ih => exact (ih.cons _).trans (flatten_perm_front _ _ _ _).symm

/-- Where the hits of each part have its position, those with one position are that part, in its
order. -/
theorem filter_shard (h : Interleaves out lists) (hplaced : Placed lists)
    {k : Nat} {hits : List Hit} (hk : lists[k]? = some hits) :
    out.filter (·.shard = k) = hits := by
  induction h generalizing k hits with
  | done hnone => exact (List.flatten_eq_nil_iff.mp hnone hits (List.mem_of_getElem? hk)).symm
  | @take hit rest out before after _ ih =>
      have hfront : (before ++ (hit :: rest) :: after)[before.length]? = some (hit :: rest) := by
        simp
      have hshard : hit.shard = before.length := hplaced _ _ hfront hit List.mem_cons_self
      by_cases hpart : k = before.length
      · subst hpart
        obtain rfl := Option.some.inj (hfront.symm.trans hk)
        have hrest : (before ++ rest :: after)[before.length]? = some rest := by simp
        rw [List.filter_cons_of_pos (by simp [hshard]), ih hplaced.of_take hrest]
      · -- The hit is of another part, and the part looked at stays as it is.
        have hne : hit.shard ≠ k := fun heq => hpart (heq.symm.trans hshard)
        rw [getElem?_append_cons_of_ne (hit :: rest) rest hpart] at hk
        rw [List.filter_cons_of_neg (by simpa using hne)]
        exact ih hplaced.of_take hk

end Interleaves

/-- What comes out of the queue takes the hits of each part in their order. -/
theorem Holds.interleaves (h : Holds queue lists) (rank : Nat) {length : Nat}
    (hlength : lists.flatten.length ≤ length) :
    Interleaves (rankFrom keys 0 length rank queue) lists := by
  induction length generalizing rank queue lists with
  | zero => exact .done (List.length_eq_zero_iff.mp (Nat.le_zero.mp hlength))
  | succ length ih =>
      cases hpop : queue.pop? (Cursor.noLater keys) with
      | none =>
          simp only [rankFrom, hpop]
          exact .done (h.flatten_eq_nil hpop)
      | some popped =>
          obtain ⟨cursor, others⟩ := popped
          obtain ⟨before, after, rfl, hleft⟩ := h.step hpop
          have hmore := (flatten_perm_front before after cursor.next cursor.rest).length_eq
          rw [List.length_cons] at hmore
          simp only [rankFrom, hpop, Nat.zero_le, if_true]
          exact .take (ih hleft (rank + 1) (by omega))

/-- The ranking takes the hits of the shards, each time from the front of one of them. -/
theorem interleaves_ranking (keys : List RankingKey) (shards : List TopDocs) :
    Interleaves (ranking keys shards) (taggedFrom 0 shards) :=
  (holds_startQueue keys shards).interleaves 0 (by rw [flatten_taggedFrom])

/-- The ranking has all hits of all shards, none of them twice. -/
theorem ranking_perm (keys : List RankingKey) (shards : List TopDocs) :
    (ranking keys shards).Perm (pooled shards) := by
  have hperm := (interleaves_ranking keys shards).perm
  rwa [flatten_taggedFrom] at hperm

/-- The parts that merging starts from have the positions of their shards. -/
theorem placed_taggedFrom (shards : List TopDocs) : Placed (taggedFrom 0 shards) := by
  intro i hits hi hit hhit
  rw [getElem?_taggedFrom, Option.map_eq_some_iff] at hi
  obtain ⟨source, -, rfl⟩ := hi
  exact shard_eq_of_mem_tagged hhit

/-- The ranking has the hits of each shard in their order. -/
theorem filter_ranking (keys : List RankingKey) {shards : List TopDocs} {k : Nat} {shard : TopDocs}
    (hk : shards[k]? = some shard) :
    (ranking keys shards).filter (·.shard = k) = shard.tagged k := by
  have htagged : (taggedFrom 0 shards)[k]? = some (shard.tagged k) := by
    rw [getElem?_taggedFrom, hk]
    rfl
  exact (interleaves_ranking keys shards).filter_shard (placed_taggedFrom shards) htagged

/-! ### Pages -/

/-- The hits of a page are a part of the ranking. The ranks of a page are counted in 64 bits, which
is enough if its end or the number of all hits fits. -/
theorem rankFrom_page (keys : List RankingKey) {shards : List TopDocs} {start size : Nat}
    (hfits : start + size < 2 ^ 64 ∨ (pooled shards).length < 2 ^ 64) :
    rankFrom keys start (pageEnd start size) 0 (startQueue keys shards)
      = ((ranking keys shards).drop start).take size := by
  have hall : (taggedFrom 0 shards).flatten.length ≤ (pooled shards).length := by
    rw [flatten_taggedFrom]
  have hlength : (ranking keys shards).length = (pooled shards).length :=
    (ranking_perm keys shards).length_eq
  rw [(holds_startQueue keys shards).rankFrom_window start _ 0 hall, ← ranking, Nat.sub_zero,
    List.drop_take]
  unfold pageEnd UInt64.size
  by_cases hend : start + size < 2 ^ 64
  · congr 1
    omega
  · -- The end of the page is cut off, but no hit lies beyond it.
    have hcount : (pooled shards).length < 2 ^ 64 := hfits.resolve_left hend
    have hdrop : ((ranking keys shards).drop start).length = (pooled shards).length - start := by
      rw [List.length_drop, hlength]
    rw [List.take_of_length_le (by omega), List.take_of_length_le (by omega)]

/-- Merging shards whose hits have their sort values succeeds with a part of the ranking. -/
theorem mergePage_eq_ok {keys : Option (List RankingKey)} {start size : Nat}
    {shards : List TopDocs} (hvalid : checkShards (keys.getD defaultKeys) 0 shards = .ok ())
    (hfits : start + size < 2 ^ 64 ∨ (pooled shards).length < 2 ^ 64) :
    mergePage keys start size shards
      = .ok ⟨(shards.map total).sum,
          ((ranking (keys.getD defaultKeys) shards).drop start).take size⟩ := by
  simp only [mergePage]
  rw [hvalid, rankFrom_page (keys.getD defaultKeys) hfits, totalOf_eq_sum]
  rfl

/-- Pages belong together. Whatever the order of the hits in the shards and whatever their sort
values, as long as there are as many of them as the criteria ask for: every page is a part of one
ranking, which has the hits of each shard in their order and no others. So two pages in a row are
one larger page. The number of all hits has to fit into 64 bits, the end of a page need not. -/
theorem mergePage_pages (keys : Option (List RankingKey)) (shards : List TopDocs)
    (hvalid : checkShards (keys.getD defaultKeys) 0 shards = .ok ())
    (hcount : (pooled shards).length < 2 ^ 64) :
    (∀ start size, mergePage keys start size shards
        = .ok ⟨(shards.map total).sum,
            ((ranking (keys.getD defaultKeys) shards).drop start).take size⟩) ∧
      (∀ (k : Nat) (shard : TopDocs), shards[k]? = some shard →
        (ranking (keys.getD defaultKeys) shards).filter (·.shard = k)
          = shard.hits.map fun hit => { hit with shard := k }) ∧
      (ranking (keys.getD defaultKeys) shards).Perm (pooled shards) ∧
      ∀ start first second, ∃ page next both, mergePage keys start first shards = .ok page ∧
        mergePage keys (start + first) second shards = .ok next ∧
        mergePage keys start (first + second) shards = .ok both ∧
        both.hits = page.hits ++ next.hits := by
  have hpage : ∀ start size, mergePage keys start size shards
      = .ok ⟨(shards.map total).sum,
          ((ranking (keys.getD defaultKeys) shards).drop start).take size⟩ := fun start size =>
    mergePage_eq_ok hvalid (.inr hcount)
  refine ⟨hpage, fun k shard hk => filter_ranking _ hk, ranking_perm _ shards, ?_⟩
  intro start first second
  refine ⟨_, _, _, hpage start first, hpage (start + first) second, hpage start (first + second),
    ?_⟩
  rw [List.take_add, List.drop_drop]

/-- Two shards that cannot be merged by sorting. The hits of the first one are in no order. The
second one has the two zeros on both sides of an integer, which is tied with either. -/
def unorderedShards : List TopDocs :=
  let score : Single := .nan .binary32 false
  [⟨5, [⟨7, score, 0, [.long 1]⟩, ⟨2, score, 0, [.text "a"]⟩, ⟨4, score, 0, [.long 0]⟩]⟩,
    ⟨2, [⟨5, score, 0, [.positiveZero]⟩, ⟨1, score, 0, [.long 0]⟩,
      ⟨3, score, 0, [.negativeZero]⟩]⟩]

/-- A page of those shards from the second rank on, as large as 64 bits can say, is the ranking
without its first hit. -/
theorem mergePage_pages_unorderedShards :
    checkShards [.field false true] 0 unorderedShards = .ok () ∧
      (pooled unorderedShards).length < 2 ^ 64 ∧
      mergePage (some [.field false true]) 1 (2 ^ 64 - 1) unorderedShards
        = .ok ⟨7, ((ranking [.field false true] unorderedShards).drop 1).take (2 ^ 64 - 1)⟩ ∧
      (ranking [.field false true] unorderedShards).Perm (pooled unorderedShards) := by
  have hvalid : checkShards [.field false true] 0 unorderedShards = .ok () := rfl
  have hcount : (pooled unorderedShards).length < 2 ^ 64 := by decide
  obtain ⟨hpage, -, hperm, -⟩ :=
    mergePage_pages (some [.field false true]) unorderedShards hvalid hcount
  exact ⟨hvalid, hcount, hpage 1 (2 ^ 64 - 1), hperm⟩

end SearchDsl.TopDocs
