import Mathlib.Data.List.Nodup
import SearchDsl.Proofs.TopDocs.Stages
import SearchDsl.Query.Response

/-!
# `SearchDsl.Proofs.Query.Merging`: from responses to merged hits

The responses to a query are read page by page, the pages become top hits, and these are merged by
the ranking keys of the query. Each stage has its own view of sort values. Reading takes a hit
without sort values for one with none, the top hits drop them unless a key reads them, and merging
wants as many as there are keys. `Query.merge_pages` says what this comes to for a whole query: the
sort values matter only if the query sorts by field or by distance, and then every hit needs one
for each criterion.

A merged hit says where it comes from: the position of its page and its own position in that page
(`Hit.address`). No two of the hits that are merged have the same address (`nodup_address_pooled`),
so the same holds of any that are returned.

Totals are added up as natural numbers, so nothing is required of them here.
-/

set_option autoImplicit false

namespace SearchDsl

/-! ### Addresses -/

/-- The position of the shard and the position in it. -/
def Hit.address (hit : Hit) : Nat × Nat := (hit.shard, hit.doc)

namespace TopDocs

variable {shards : List TopDocs}

/-- Hits with different positions in each shard have different addresses altogether. -/
theorem nodup_address_pooled (h : ∀ shard ∈ shards, (shard.hits.map Hit.doc).Nodup) :
    ((pooled shards).map Hit.address).Nodup := by
  have haddresses : (pooled shards).map Hit.address
      = shards.zipIdx.flatMap fun entry => (entry.1.hits.map Hit.doc).map (Prod.mk entry.2) := by
    simp only [pooled, List.map_flatMap, List.map_map]
    rfl
  rw [haddresses, List.nodup_flatMap]
  constructor
  · intro entry hentry
    have hshard : entry.1 ∈ shards := List.mem_of_getElem? (List.mem_zipIdx_iff_getElem?.mp hentry)
    exact (h entry.1 hshard).map fun _ _ heq => congrArg Prod.snd heq
  · -- Shards have different positions, whatever the positions of their hits.
    have hpositions : shards.zipIdx.Pairwise fun a b => a.2 ≠ b.2 := by
      refine List.pairwise_map.mp ?_
      rw [List.zipIdx_map_snd]
      exact List.nodup_range'
    refine hpositions.imp fun {a b} hne => ?_
    intro address hfirst hsecond
    obtain ⟨_, -, rfl⟩ := List.mem_map.mp hfirst
    obtain ⟨_, -, heq⟩ := List.mem_map.mp hsecond
    exact hne (congrArg Prod.fst heq).symm

/-- Merging succeeds exactly if all hits have the sort values that the criteria ask for. -/
theorem exists_merge_eq_ok_iff {keys : List RankingKey} {size : Nat} :
    (∃ top, merge (some keys) size shards = .ok top) ↔
      ∀ shard ∈ shards, ∀ hit ∈ shard.hits, hit.HasValues keys := by
  unfold merge mergePage
  rw [Steps.exists_check_eq_ok_iff, checkShards_eq_ok_iff]
  exact and_iff_left ⟨_, rfl⟩

end TopDocs

/-! ### Pages as shards -/

namespace ResultPage

/-- The position of a top hit is its position in the page. -/
theorem map_doc_toTopDocs (keys : List RankingKey) (page : ResultPage) :
    (page.toTopDocs keys).hits.map Hit.doc = List.range page.hits.length := by
  rw [toTopDocs, List.mapIdx_eq_zipIdx_map, List.map_map, List.range_eq_range']
  exact List.zipIdx_map_snd 0 page.hits

/-- A page has as many top hits as it has hits. -/
theorem length_hits_toTopDocs (keys : List RankingKey) (page : ResultPage) :
    (page.toTopDocs keys).hits.length = page.hits.length := List.length_mapIdx

/-- A top hit is made from the hit at its position in the page. -/
theorem mem_hits_toTopDocs_iff {keys : List RankingKey} {page : ResultPage} {hit : Hit} :
    hit ∈ (page.toTopDocs keys).hits ↔ ∃ found, page.hits[hit.doc]? = some found ∧
      hit = rankedHit (keys.any RankingKey.readsValues) found hit.doc := by
  rw [toTopDocs, List.mem_mapIdx]
  constructor
  · rintro ⟨i, hi, rfl⟩
    exact ⟨page.hits[i], List.getElem?_eq_getElem hi, rfl⟩
  · rintro ⟨found, hfound, heq⟩
    obtain ⟨hi, rfl⟩ := List.getElem?_eq_some_iff.mp hfound
    exact ⟨hit.doc, hi, heq.symm⟩

end ResultPage

/-! ### Sort values -/

/-- Whether a criterion orders hits by a value that comes with them, of a field or of a distance. -/
def SortCriterion.isByValue : SortCriterion → Bool
  | field _ | distance _ => true
  | score _ | indexOrder => false

/-- The ranking reads sort values for criteria by value, and for no others. -/
theorem SortCriterion.readsValues_rankingKey (criterion : SortCriterion) :
    criterion.rankingKey.readsValues = criterion.isByValue := by
  cases criterion <;> rfl

/-- The hits that a response lists. -/
def Json.listedHits (response : Json) : List Json :=
  (((response.get? "hits").bind (Json.get? "hits")).bind Json.asArray?).getD []

/-- A hit has an array of as many sort values as given. -/
def Json.HasSortValues (hit : Json) (count : Nat) : Prop :=
  ∃ values, hit.get? "sort" = some (.array values) ∧ values.length = count

namespace Query

/-- Whether some criterion of the query is a field or a distance. -/
def sortsByValue (query : Query) : Bool := query.sorts.any SortCriterion.isByValue

variable {query : Query}

/-- The sort values of hits are kept if the query sorts by value. -/
theorem any_readsValues_rankingKeys (query : Query) :
    query.rankingKeys.any RankingKey.readsValues = query.sortsByValue := by
  unfold rankingKeys sortsByValue
  cases query.sorts with
  | nil => rfl
  | cons first rest =>
      show ((first :: rest).map SortCriterion.rankingKey).any RankingKey.readsValues = _
      rw [List.any_map]
      exact congrArg _ (funext SortCriterion.readsValues_rankingKey)

/-- A query that sorts by value has one ranking key for each criterion, and at least one. -/
theorem length_rankingKeys (h : query.sortsByValue = true) :
    query.rankingKeys.length = query.sorts.length ∧ 0 < query.sorts.length := by
  unfold sortsByValue at h
  unfold rankingKeys
  cases hsorts : query.sorts with
  | nil => simp [hsorts] at h
  | cons first rest => exact ⟨List.length_map _, Nat.succ_pos _⟩

/-- A hit that is read without sort values has no array of them, unless it is empty. -/
theorem length_sortValuesOf {hit : Json} {count : Nat} (hcount : 0 < count) :
    (sortValuesOf hit).length = count ↔ hit.HasSortValues count := by
  unfold sortValuesOf Json.HasSortValues
  rw [List.length_map]
  constructor
  · intro h
    cases harray : (hit.get? "sort").bind Json.asArray? with
    | none =>
        rw [harray] at h
        exact absurd h (Nat.ne_of_lt hcount)
    | some values =>
        rw [harray] at h
        obtain ⟨sort, hsort, hvalues⟩ := Option.bind_eq_some_iff.mp harray
        -- Of all values only arrays have items.
        cases sort with
        | array items =>
            obtain rfl := Option.some.inj hvalues
            exact ⟨items, hsort, h⟩
        | null | bool | int | double | string | object => simp [Json.asArray?] at hvalues
  · rintro ⟨values, hsort, hlength⟩
    rw [hsort]
    exact hlength

/-- The sort values of a hit are read as they stand in the response. -/
theorem sortValues_of_readHit {hit : Json} {found : SearchHit}
    (h : query.readHit hit = .ok found) : found.sortValues = sortValuesOf hit := by
  obtain ⟨projections, -, h⟩ := Steps.bind_eq_ok_iff.mp h
  obtain ⟨index, -, h⟩ := Steps.bind_eq_ok_iff.mp h
  obtain ⟨id, -, h⟩ := Steps.bind_eq_ok_iff.mp h
  rw [Steps.pure_eq_ok_iff.mp h]

/-- The hits of a page are those that the response lists, in the same order. -/
theorem hits_of_readResponse {dialect : Dialect} {response : Json} {page : ResultPage}
    (h : query.readResponse dialect response = .ok page) :
    List.Forall₂ (fun hit found => query.readHit hit = .ok found) response.listedHits
      page.hits := by
  unfold readResponse at h
  cases hobject : response.get? "hits" with
  | none =>
      simp only [hobject] at h
      obtain ⟨_, hthrow, -⟩ := Steps.bind_eq_ok_iff.mp h
      exact absurd hthrow Steps.throw_ne_ok
  | some hits =>
      cases hitems : (hits.get? "hits").bind Json.asArray? with
      | none =>
          simp only [hobject, hitems, pure_bind] at h
          obtain ⟨_, -, h⟩ := Steps.bind_eq_ok_iff.mp h
          obtain ⟨_, hthrow, -⟩ := Steps.bind_eq_ok_iff.mp h
          exact absurd hthrow Steps.throw_ne_ok
      | some items =>
          simp only [hobject, hitems, pure_bind] at h
          obtain ⟨total, -, h⟩ := Steps.bind_eq_ok_iff.mp h
          obtain ⟨found, hfound, h⟩ := Steps.bind_eq_ok_iff.mp h
          have hlisted : response.listedHits = items := by
            simp [Json.listedHits, hobject, hitems]
          rw [Steps.pure_eq_ok_iff.mp h, hlisted]
          exact Steps.mapM_eq_ok_iff.mp hfound

/-! ### Merged pages -/

/-- The pages of a query as shards to be merged. -/
def shardsOf (query : Query) (pages : List ResultPage) : List TopDocs :=
  pages.map (ResultPage.toTopDocs query.rankingKeys)

/-- A top hit with the sort values that the keys of the query ask for comes from a hit with one
value for each criterion, or nothing is asked for. -/
theorem hasValues_rankedHit {found : SearchHit} {position : Nat} :
    (ResultPage.rankedHit (query.rankingKeys.any RankingKey.readsValues) found position).HasValues
        query.rankingKeys ↔
      query.sortsByValue = false ∨ found.sortValues.length = query.sorts.length := by
  have hreads := any_readsValues_rankingKeys query
  rw [hreads]
  cases hsorts : query.sortsByValue with
  | false =>
      rw [hsorts] at hreads
      have hunread : ∀ key ∈ query.rankingKeys, key.readsValues = false := by simpa using hreads
      simp only [true_or, iff_true]
      exact .inr ⟨rfl, hunread⟩
  | true =>
      obtain ⟨hlength, hpositive⟩ := length_rankingKeys hsorts
      have hread : ¬∀ key ∈ query.rankingKeys, key.readsValues = false := by
        rw [hsorts] at hreads
        simpa using hreads
      simp only [Hit.HasValues, ResultPage.rankedHit, if_true, hlength, hread, and_false, or_false,
        Bool.true_eq_false, false_or]

/-- The hits of a page have as many sort values as given if those that the response lists do. -/
theorem sortValues_of_readResponse {dialect : Dialect} {response : Json} {page : ResultPage}
    (h : query.readResponse dialect response = .ok page) {count : Nat} (hcount : 0 < count) :
    (∀ hit ∈ response.listedHits, hit.HasSortValues count) ↔
      ∀ found ∈ page.hits, found.sortValues.length = count :=
  Steps.forall_mem_iff_of_forall₂ (hits_of_readResponse h) fun hit found hfound => by
    rw [sortValues_of_readHit hfound, length_sortValuesOf hcount]

/-- All pages of a query can be merged if it does not sort by value, or if all hits that the
responses list have a sort value for each criterion. -/
theorem hasValues_shardsOf_iff {sources : List (Dialect × Json)} {pages : List ResultPage}
    (hread : List.Forall₂ (fun source page => query.readResponse source.1 source.2 = .ok page)
      sources pages) :
    (∀ shard ∈ query.shardsOf pages, ∀ hit ∈ shard.hits, hit.HasValues query.rankingKeys) ↔
      query.sortsByValue = false ∨ ∀ source ∈ sources, ∀ hit ∈ source.2.listedHits,
        hit.HasSortValues query.sorts.length := by
  have hpages : (∀ shard ∈ query.shardsOf pages, ∀ hit ∈ shard.hits,
        hit.HasValues query.rankingKeys) ↔
      ∀ page ∈ pages, ∀ found ∈ page.hits,
        query.sortsByValue = false ∨ found.sortValues.length = query.sorts.length := by
    simp only [shardsOf, List.forall_mem_map]
    refine forall₂_congr fun page _ => ⟨fun h found hfound => ?_, fun h hit hhit => ?_⟩
    · obtain ⟨position, hposition⟩ := List.mem_iff_getElem?.mp hfound
      exact hasValues_rankedHit.mp
        (h _ (ResultPage.mem_hits_toTopDocs_iff.mpr ⟨found, hposition, rfl⟩))
    · obtain ⟨found, hfound, heq⟩ := ResultPage.mem_hits_toTopDocs_iff.mp hhit
      rw [heq]
      exact hasValues_rankedHit.mpr (h found (List.mem_of_getElem? hfound))
  rw [hpages]
  -- With a criterion that is sorted by there is at least one value to ask for.
  cases hsorts : query.sortsByValue with
  | false => simp
  | true =>
      simp only [Bool.true_eq_false, false_or]
      exact (Steps.forall_mem_iff_of_forall₂ hread fun source page hpage =>
        sortValues_of_readResponse hpage (length_rankingKeys hsorts).2).symm

/-- A merged hit and the hit of a page that it stands for. -/
structure StandsFor (query : Query) (pages : List ResultPage) (hit : Hit) (found : SearchHit) :
    Prop where
  /-- The hit is found at the address. -/
  address : ∃ page, pages[hit.shard]? = some page ∧ page.hits[hit.doc]? = some found
  /-- The score is that of the hit. It is no number if the hit has none. -/
  score : hit.score = found.score.getD (.nan .binary32 false)
  /-- The sort values are those of the hit if the query sorts by value, and left out otherwise. -/
  values : hit.values = if query.sortsByValue then found.sortValues else []

/-- The hits that are merged are those that stand for a hit of some page. -/
theorem mem_pooled_shardsOf_iff {pages : List ResultPage} {hit : Hit} :
    hit ∈ TopDocs.pooled (query.shardsOf pages) ↔ ∃ found, query.StandsFor pages hit found := by
  have hreads := any_readsValues_rankingKeys query
  rw [TopDocs.mem_pooled_iff]
  simp only [shardsOf, List.getElem?_map, Option.map_eq_some_iff]
  constructor
  · rintro ⟨_, ⟨page, hpage, rfl⟩, source, hsource, heq⟩
    obtain ⟨found, hfound, hranked⟩ := ResultPage.mem_hits_toTopDocs_iff.mp hsource
    rw [hranked, hreads] at heq
    refine ⟨found, ⟨page, hpage, ?_⟩, ?_, ?_⟩
    · rw [heq]; exact hfound
    · rw [heq]; rfl
    · rw [heq]; rfl
  · rintro ⟨found, ⟨page, hpage, hfound⟩, hscore, hvalues⟩
    refine ⟨_, ⟨page, hpage, rfl⟩, ResultPage.rankedHit query.sortsByValue found hit.doc, ?_, ?_⟩
    · exact ResultPage.mem_hits_toTopDocs_iff.mpr ⟨found, hfound, by rw [hreads]; rfl⟩
    · cases hit
      simp only at hscore hvalues
      rw [hscore, hvalues]
      rfl

/-- The number of hits of all pages. -/
def hitCount (pages : List ResultPage) : Nat := (pages.map fun page => page.hits.length).sum

/-- As many hits are merged as all pages have together. -/
theorem length_pooled_shardsOf (query : Query) (pages : List ResultPage) :
    (TopDocs.pooled (query.shardsOf pages)).length = hitCount pages := by
  rw [TopDocs.length_pooled, shardsOf, List.map_map]
  exact congrArg List.sum (List.map_congr_left fun page _ => page.length_hits_toTopDocs _)

/-- Merging the first hits of the pages that are read from responses to a query succeeds exactly if
the query does not sort by value, or if all hits in the responses have an array of sort values, one
for each criterion. It returns as many hits as asked for or as there are. Each of them stands for a
hit of a page, no two for the same one, and if all are asked for there is one for every hit of
every page. -/
theorem merge_pages {sources : List (Dialect × Json)} {pages : List ResultPage}
    (hread : List.Forall₂ (fun source page => query.readResponse source.1 source.2 = .ok page)
      sources pages) (size : UInt64) :
    ((∃ top, TopDocs.merge (some query.rankingKeys) size.toNat (query.shardsOf pages) = .ok top) ↔
      query.sortsByValue = false ∨ ∀ source ∈ sources, ∀ hit ∈ source.2.listedHits,
        hit.HasSortValues query.sorts.length) ∧
    ∀ top, TopDocs.merge (some query.rankingKeys) size.toNat (query.shardsOf pages) = .ok top →
      top.hits.length = min size.toNat (hitCount pages) ∧
      (∀ hit ∈ top.hits, ∃ found, query.StandsFor pages hit found) ∧
      (top.hits.map Hit.address).Nodup ∧
      (hitCount pages ≤ size.toNat → ∀ (k : Nat) (page : ResultPage), pages[k]? = some page →
        ∀ i < page.hits.length, (k, i) ∈ top.hits.map Hit.address) := by
  refine ⟨TopDocs.exists_merge_eq_ok_iff.trans (hasValues_shardsOf_iff hread), fun top h => ?_⟩
  have hvalid : TopDocs.checkShards query.rankingKeys 0 (query.shardsOf pages) = .ok () :=
    TopDocs.checkShards_eq_ok_iff.mpr (TopDocs.exists_merge_eq_ok_iff.mp ⟨top, h⟩)
  -- What is returned are the first hits of the ranking, which has exactly those of the pages.
  have hperm := TopDocs.ranking_perm query.rankingKeys (query.shardsOf pages)
  have hlength := hperm.length_eq.trans (length_pooled_shardsOf query pages)
  have hhits : top.hits
      = (TopDocs.ranking query.rankingKeys (query.shardsOf pages)).take size.toNat := by
    have hsize : 0 + size.toNat < 2 ^ 64 := (Nat.zero_add _).symm ▸ size.toNat_lt
    have hpage := @TopDocs.mergePage_eq_ok (some query.rankingKeys) 0 size.toNat
      (query.shardsOf pages) hvalid (.inl hsize)
    rw [TopDocs.merge, hpage] at h
    exact (congrArg TopDocs.hits (Except.ok.inj h)).symm
  -- The positions in a page are ranks, so they are different in each page.
  have hdocs : ∀ shard ∈ query.shardsOf pages, (shard.hits.map Hit.doc).Nodup := by
    intro shard hshard
    obtain ⟨page, -, rfl⟩ := List.mem_map.mp hshard
    rw [ResultPage.map_doc_toTopDocs]
    exact List.nodup_range
  have hnodup := (hperm.map Hit.address).nodup_iff.mpr (TopDocs.nodup_address_pooled hdocs)
  rw [hhits]
  refine ⟨by rw [List.length_take, hlength], fun hit hhit => ?_, ?_, ?_⟩
  · exact mem_pooled_shardsOf_iff.mp (hperm.mem_iff.mp (List.mem_of_mem_take hhit))
  · exact hnodup.sublist ((List.take_sublist _ _).map _)
  · intro hall k page hpage i hi
    -- Nothing is cut off, and the hit at the address is one of those that were ranked.
    rw [List.take_of_length_le (hlength ▸ hall)]
    have hfound : page.hits[i]? = some page.hits[i] := List.getElem?_eq_getElem hi
    let hit : Hit := { ResultPage.rankedHit query.sortsByValue page.hits[i] i with shard := k }
    have hstands : query.StandsFor pages hit page.hits[i] := ⟨⟨page, hpage, hfound⟩, rfl, rfl⟩
    have hmem := hperm.mem_iff.mpr (mem_pooled_shardsOf_iff.mpr ⟨_, hstands⟩)
    exact List.mem_map.mpr ⟨hit, hmem, rfl⟩

/-- The articles of a shop by price. -/
def byPrice : Query where
  indexes := ["shop"]
  predicate := .matchAll none
  sorts := [.field { path := "price", kind := .double, hierarchy := [] }]
  projections := [.reference]
  routingKeys := []

/-- A response with an article for each of some lists of sort values. -/
def articles (sorts : List (List Json)) : Json :=
  let hits := sorts.map fun values => .object
    [("_id", .string "a"), ("_index", .string "shop"), ("sort", .array values)]
  .object [("hits", .object [("hits", .array hits), ("total", .int hits.length)])]

/-- The hits of such a response have the sort values that it was made from. -/
theorem forall_listedHits_articles {sorts : List (List Json)} {count : Nat} :
    (∀ hit ∈ (articles sorts).listedHits, hit.HasSortValues count) ↔
      ∀ values ∈ sorts, values.length = count := by
  simp [articles, Json.listedHits, Json.HasSortValues, Json.get?, Json.find?, Json.asArray?]

/-- Two responses with three articles are merged completely. With an article that has no sort value
they are not merged at all. -/
theorem merge_pages_byPrice :
    (∃ pages top, List.Forall₂
          (fun source page => byPrice.readResponse source.1 source.2 = .ok page)
        [(.v63, articles [[.int 1], [.int 3]]), (.v56, articles [[.int 2]])] pages ∧
      TopDocs.merge (some byPrice.rankingKeys) (3 : UInt64).toNat (byPrice.shardsOf pages)
        = .ok top ∧
      top.hits.length = 3 ∧ (0, 1) ∈ top.hits.map Hit.address) ∧
    ∃ pages, List.Forall₂ (fun source page => byPrice.readResponse source.1 source.2 = .ok page)
        [(.v63, articles [[.int 1], []])] pages ∧
      ¬∃ top, TopDocs.merge (some byPrice.rankingKeys) (3 : UInt64).toNat (byPrice.shardsOf pages)
        = .ok top := by
  constructor
  · have hread : List.Forall₂
        (fun source page => byPrice.readResponse source.1 source.2 = .ok page)
        [(.v63, articles [[.int 1], [.int 3]]), (.v56, articles [[.int 2]])] _ :=
      .cons rfl (.cons rfl .nil)
    obtain ⟨hmerge, hhits⟩ := merge_pages hread 3
    simp only [List.forall_mem_cons, forall_listedHits_articles] at hmerge
    obtain ⟨top, htop⟩ := hmerge.mpr (.inr (by simp [byPrice]))
    obtain ⟨hlength, -, -, hall⟩ := hhits top htop
    exact ⟨_, top, hread, htop, hlength, hall (by decide) 0 _ rfl 1 (by decide)⟩
  · have hread : List.Forall₂
        (fun source page => byPrice.readResponse source.1 source.2 = .ok page)
        [(.v63, articles [[.int 1], []])] _ := .cons rfl .nil
    refine ⟨_, hread, fun hmerge => ?_⟩
    have h := (merge_pages hread 3).1.mp hmerge
    simp only [List.forall_mem_cons, forall_listedHits_articles] at h
    simp [byPrice, sortsByValue, SortCriterion.isByValue] at h

end Query

end SearchDsl
