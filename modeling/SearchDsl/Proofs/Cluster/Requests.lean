import SearchDsl.Cluster.Basic
import SearchDsl.Proofs.Json.Members
import SearchDsl.Proofs.Scope.Leaves

/-!
# `SearchDsl.Proofs.Cluster.Requests`: which requests can be made

A search request is refused for one of three reasons: its query does not render, it has no index, or
the hits that it asks for are outside the result window. `Cluster.requests_succeed` says that the
first two never happen. The root takes every predicate and renders those that the constructors make,
and a scope has an index. What remains is the window, and a valid configuration has room there for
its own default.
-/

set_option autoImplicit false

namespace SearchDsl

/-! ### Predicates of a scope -/

namespace Scope

variable {scope : Scope}

/-- A test on fields is made by the checked constructor. -/
theorem constructible_of_test {first : ValueField} {others : List ValueField} {test : FieldTest}
    {p : FieldPredicate} (h : first.test others test = .ok p) : p.Constructible :=
  .create (ValueField.test_eq_ok_iff.mp h).2

/-- So is a match of one or several fields. -/
theorem constructible_of_matchFields {paths : List String} {value : FieldValue}
    {p : FieldPredicate} (h : scope.matchFields paths value = .ok p) : p.Constructible := by
  unfold matchFields at h
  cases paths with
  | nil => simp at h
  | cons path paths =>
      obtain ⟨first, -, h⟩ := Steps.bind_eq_ok_iff.mp h
      obtain ⟨others, -, h⟩ := Steps.bind_eq_ok_iff.mp h
      obtain ⟨-, h⟩ := Steps.check_eq_ok_iff.mp h
      obtain ⟨json, -, h⟩ := Steps.bind_eq_ok_iff.mp h
      exact constructible_of_test h

/-- The functions of a scope make field predicates with the constructor. -/
theorem AssembledField.constructible {p : FieldPredicate} (h : AssembledField scope p) :
    p.Constructible := by
  induction h with
  | matchField h => exact constructible_of_matchFields h
  | matchFields h => exact constructible_of_matchFields h
  | fuzzyMatch h =>
      obtain ⟨field, -, h⟩ := Steps.bind_eq_ok_iff.mp h
      exact constructible_of_test (Steps.throwIf_eq_ok_iff.mp h).2
  | phrase h =>
      obtain ⟨field, -, h⟩ := Steps.bind_eq_ok_iff.mp h
      exact constructible_of_test h
  | wildcard h =>
      obtain ⟨field, -, h⟩ := Steps.bind_eq_ok_iff.mp h
      exact constructible_of_test h
  | existsField h =>
      obtain ⟨field, -, h⟩ := Steps.bind_eq_ok_iff.mp h
      exact constructible_of_test (Steps.check_eq_ok_iff.mp h).2
  | range h =>
      obtain ⟨field, -, h⟩ := Steps.bind_eq_ok_iff.mp h
      obtain ⟨⟨lower, upper⟩, -, h⟩ := Steps.bind_eq_ok_iff.mp h
      exact .create h
  | withBoost boost h ih => exact .withBoost boost ih
  | withSlop slop h ih => exact .withSlop slop ih

/-- So what is assembled with the functions of a scope is made by the constructors. -/
theorem Assembled.constructible {p : Predicate} (h : Assembled scope p) : p.Constructible := by
  induction h with
  | matchAll boost => exact .matchAll boost
  | ids h => exact .ids h
  | field h => exact .field h.constructible
  | bool minimum boost h ih => exact .bool minimum boost ih
  | nested hinner h ih =>
      obtain ⟨object, -, -, hcreate⟩ := nested_eq_ok_iff.mp h
      exact .nested ih hcreate

end Scope

/-! ### Queries -/

namespace Query

/-- The query clause renders, and there is an index to search. -/
structure Ready (query : Query) : Prop where
  clause : ∃ json, query.clause = .ok json
  indexes_ne : query.indexes ≠ []

/-- A query is always made, for the root takes every predicate. -/
theorem create_eq_ok (scope : Scope) (predicate : Option Predicate) (sorts : List SortCriterion)
    (projections : List Projection) (routingKeys : List String) :
    create scope predicate sorts projections routingKeys = .ok {
      indexes := scope.indexNames
      predicate := predicate.getD (.matchAll none)
      sorts
      projections := if projections = [] then [.reference] else projections
      routingKeys } :=
  Steps.check_eq_ok_iff.mpr ⟨Predicate.checkWithin_none _, rfl⟩

/-- Queries of a scope are ready if the constructors made their predicates. -/
theorem ready_of_create {scope : Scope} {predicate : Option Predicate}
    {sorts : List SortCriterion} {projections : List Projection} {routingKeys : List String}
    {query : Query} (hpredicate : ∀ p ∈ predicate, p.Constructible)
    (h : create scope predicate sorts projections routingKeys = .ok query) : query.Ready := by
  obtain rfl := Except.ok.inj ((create_eq_ok ..).symm.trans h)
  refine ⟨?_, List.map_eq_nil_iff.not.mpr scope.indexes_ne⟩
  have hconstructible : (predicate.getD (.matchAll none)).Constructible := by
    cases predicate with
    | none => exact .matchAll none
    | some p => exact hpredicate p rfl
  exact Predicate.exists_build_of_checkWithin hconstructible (Predicate.checkWithin_none _)

section Body

variable {query : Query} {dialect : Dialect} {config : ClusterConfig} {offset : UInt64}
  {limit : Option UInt64} {body : Json}

/-- Of a query that is ready, any hits inside the result window can be asked for. -/
theorem Ready.exists_body_iff (h : query.Ready) (dialect : Dialect) (config : ClusterConfig)
    (offset : UInt64) (limit : Option UInt64) :
    (∃ body, query.body dialect config offset limit = .ok body) ↔
      window offset (limit.getD config.defaultLimit) ≤ config.maxResultWindow.toNat := by
  obtain ⟨clause, hclause⟩ := h.clause
  unfold Query.body
  simp only [Steps.throwIf_eq_ok_iff, exists_and_left, not_lt, hclause]
  exact and_iff_left ⟨_, rfl⟩

/-- The members of a body, with some parts of the documents, sorts and scores asked for. -/
theorem exists_members_of_body (h : query.body dialect config offset limit = .ok body) :
    ∃ clause source sorts scores, query.clause = .ok clause ∧
      body = .object (Json.member? "_source" source
        ++ [("from", .int offset.toNat), ("query", clause),
          ("size", .int (limit.getD config.defaultLimit).toNat)]
        ++ Json.member? "sort" sorts ++ Json.member? "track_scores" scores
        ++ Json.member? "track_total_hits"
          (if dialect.tracksTotalHits then some (.bool config.trackTotalHits) else none)) := by
  unfold Query.body at h
  obtain ⟨-, h⟩ := Steps.throwIf_eq_ok_iff.mp h
  obtain ⟨clause, hclause, h⟩ := Steps.bind_eq_ok_iff.mp h
  exact ⟨clause, _, _, _, hclause, Steps.pure_eq_ok_iff.mp h⟩

/-- The body asks for `limit` hits of the query from `offset` on. -/
structure AskedBy (query : Query) (body : Json) (offset limit : UInt64) : Prop where
  clause : ∃ clause, query.clause = .ok clause ∧ body.get? "query" = some clause
  offset : body.get? "from" = some (.int offset.toNat)
  limit : body.get? "size" = some (.int limit.toNat)

/-- A body asks for the hits that it was made for, and for the default number if none was given. -/
theorem askedBy_of_body (h : query.body dialect config offset limit = .ok body) :
    query.AskedBy body offset (limit.getD config.defaultLimit) := by
  obtain ⟨clause, source, sorts, scores, hclause, rfl⟩ := exists_members_of_body h
  refine ⟨⟨clause, hclause, ?_⟩, ?_, ?_⟩ <;>
    simp only [Json.get?, List.append_assoc, List.cons_append]
  · rw [Json.find?_member?_append (by decide), Json.find?_cons_of_ne (by decide),
      Json.find?_cons_self]
  · rw [Json.find?_member?_append (by decide), Json.find?_cons_self]
  · rw [Json.find?_member?_append (by decide), Json.find?_cons_of_ne (by decide),
      Json.find?_cons_of_ne (by decide), Json.find?_cons_self]

end Body

/-- The window is no greater than the sum, which it stands for as far as it can. -/
theorem window_le {offset limit bound : UInt64} (h : offset.toNat + limit.toNat ≤ bound.toNat) :
    window offset limit ≤ bound.toNat :=
  (min_le_left _ _).trans h

end Query

/-! ### Requests -/

namespace Request

variable {dialect : Dialect} {call : SearchCall}

/-- A search only needs an index. -/
theorem exists_search_iff : (∃ request, search dialect call = .ok request) ↔ call.indexes ≠ [] := by
  unfold search
  split <;> simp_all

/-- A search carries the body that it is called with. -/
theorem body_of_search {request : Request} (h : search dialect call = .ok request) :
    request.body = some call.body := by
  unfold search at h
  split at h
  · simp at h
  · rw [← Except.ok.inj h]

end Request

namespace ClusterConfig

/-- What a valid configuration guarantees. -/
theorem validate_eq_ok_iff {config : ClusterConfig} : config.validate = .ok () ↔
    config.defaultLimit ≠ 0 ∧ config.scrollTimeout ≠ 0 ∧
      config.defaultLimit ≤ config.maxResultWindow ∧
        ∃ version, config.parsedVersion = .ok version := by
  unfold validate
  simp only [Steps.throwIf_eq_ok_iff, Steps.bind_eq_ok_iff, Steps.pure_eq_ok_iff, UInt64.not_lt,
    and_true, ne_eq]

end ClusterConfig

namespace Cluster

variable {cluster : Cluster} {config : ClusterConfig} {query : Query}

/-- A cluster is made of a valid configuration whose version has a dialect. -/
theorem create_eq_ok_iff : create config = .ok cluster ↔ config.validate = .ok () ∧
    (config.parsedVersion >>= Dialect.ofVersion) = .ok cluster.dialect ∧
      cluster.config = config := by
  unfold create
  rw [Steps.check_eq_ok_iff]
  simp only [Steps.bind_eq_ok_iff, Steps.pure_eq_ok_iff]
  constructor
  · rintro ⟨hvalid, version, hversion, dialect, hdialect, rfl⟩
    exact ⟨hvalid, ⟨version, hversion, hdialect⟩, rfl⟩
  · rintro ⟨hvalid, ⟨version, hversion, hdialect⟩, rfl⟩
    exact ⟨hvalid, version, hversion, cluster.dialect, hdialect, rfl⟩

/-- Exactly the searches inside the result window can be made. -/
theorem exists_searchRequest_iff (hquery : query.Ready) {offset : UInt64} {limit : Option UInt64} :
    (∃ request, cluster.searchRequest query offset limit = .ok request) ↔
      Query.window offset (limit.getD cluster.config.defaultLimit)
        ≤ cluster.config.maxResultWindow.toNat := by
  rw [← hquery.exists_body_iff cluster.dialect]
  unfold searchRequest
  rw [Steps.exists_bind_eq_ok_iff]
  exact exists_congr fun body => and_iff_left (Request.exists_search_iff.mpr hquery.indexes_ne)

/-- Exactly the scrolls with pages inside the result window can be opened. -/
theorem exists_scrollRequest_iff (hquery : query.Ready) {chunk : UInt64} :
    (∃ request, cluster.scrollRequest query chunk = .ok request) ↔
      Query.window 0 chunk ≤ cluster.config.maxResultWindow.toNat := by
  refine Iff.trans ?_ (hquery.exists_body_iff cluster.dialect cluster.config 0 (some chunk))
  unfold scrollRequest
  rw [Steps.exists_bind_eq_ok_iff]
  exact exists_congr fun body => and_iff_left (Request.exists_search_iff.mpr hquery.indexes_ne)

/-- The body of a search request is that of the query. -/
theorem exists_body_of_searchRequest {offset : UInt64} {limit : Option UInt64} {request : Request}
    (h : cluster.searchRequest query offset limit = .ok request) :
    ∃ body, request.body = some body ∧
      query.body cluster.dialect cluster.config offset limit = .ok body := by
  obtain ⟨body, hbody, hsearch⟩ := Steps.bind_eq_ok_iff.mp h
  exact ⟨body, Request.body_of_search hsearch, hbody⟩

/-- The body of a request that opens a scroll is that of the query, from the first hit on. -/
theorem exists_body_of_scrollRequest {chunk : UInt64} {request : Request}
    (h : cluster.scrollRequest query chunk = .ok request) :
    ∃ body, request.body = some body ∧
      query.body cluster.dialect cluster.config 0 (some chunk) = .ok body := by
  obtain ⟨body, hbody, hsearch⟩ := Steps.bind_eq_ok_iff.mp h
  exact ⟨body, Request.body_of_search hsearch, hbody⟩

/-- A search inside the window is a request for its hits. -/
theorem exists_search_askedBy (hquery : query.Ready) {offset : UInt64} {limit : Option UInt64}
    (hsum : offset.toNat + (limit.getD cluster.config.defaultLimit).toNat
      ≤ cluster.config.maxResultWindow.toNat) :
    ∃ request body, cluster.searchRequest query offset limit = .ok request ∧
      request.body = some body ∧
        query.AskedBy body offset (limit.getD cluster.config.defaultLimit) := by
  obtain ⟨request, hrequest⟩ := (exists_searchRequest_iff hquery).mpr (Query.window_le hsum)
  obtain ⟨body, hcarried, hbody⟩ := exists_body_of_searchRequest hrequest
  exact ⟨request, body, hrequest, hcarried, Query.askedBy_of_body hbody⟩

/-- A scroll with pages inside the window is a request for the first of them. -/
theorem exists_scroll_askedBy (hquery : query.Ready) {chunk : UInt64}
    (hchunk : chunk.toNat ≤ cluster.config.maxResultWindow.toNat) :
    ∃ request body, cluster.scrollRequest query chunk = .ok request ∧
      request.body = some body ∧ query.AskedBy body 0 chunk := by
  have hsum : (0 : UInt64).toNat + chunk.toNat ≤ cluster.config.maxResultWindow.toNat := by
    rw [UInt64.toNat_zero, Nat.zero_add]
    exact hchunk
  obtain ⟨request, hrequest⟩ := (exists_scrollRequest_iff hquery).mpr (Query.window_le hsum)
  obtain ⟨body, hcarried, hbody⟩ := exists_body_of_scrollRequest hrequest
  exact ⟨request, body, hrequest, hcarried, Query.askedBy_of_body hbody⟩

/-- The default limit of a valid configuration is within the window from the start. -/
theorem defaultLimit_le_window (hvalid : config.validate = .ok ()) :
    (0 : UInt64).toNat + ((none : Option UInt64).getD config.defaultLimit).toNat
      ≤ config.maxResultWindow.toNat := by
  obtain ⟨-, -, hlimit, -⟩ := ClusterConfig.validate_eq_ok_iff.mp hvalid
  rw [UInt64.toNat_zero, Nat.zero_add, Option.getD_none]
  exact UInt64.le_iff_toNat_le.mp hlimit

/-- A valid configuration whose version has a dialect makes a cluster, and whatever is built against
a scope makes a query. The cluster then has requests for all hits of the query inside its result
window: for any offset and limit whose sum is no greater, for the first hits without a limit, and
for a scroll with pages of any size up to that of the window. Each has a body that asks for these
hits. -/
theorem requests_succeed {dialect : Dialect} (hvalid : config.validate = .ok ())
    (hdialect : (config.parsedVersion >>= Dialect.ofVersion) = .ok dialect) (scope : Scope)
    {predicate : Option Predicate} (hpredicate : ∀ p ∈ predicate, p.Constructible)
    (sorts : List SortCriterion) (projections : List Projection) (routingKeys : List String) :
    ∃ cluster query, create config = .ok cluster ∧
      Query.create scope predicate sorts projections routingKeys = .ok query ∧
      (∀ (offset : UInt64) (limit : Option UInt64),
        offset.toNat + (limit.getD config.defaultLimit).toNat ≤ config.maxResultWindow.toNat →
          ∃ request body, cluster.searchRequest query offset limit = .ok request ∧
            request.body = some body ∧
              query.AskedBy body offset (limit.getD config.defaultLimit)) ∧
      (∃ request body, cluster.searchRequest query 0 none = .ok request ∧
        request.body = some body ∧ query.AskedBy body 0 config.defaultLimit) ∧
      ∀ chunk : UInt64, chunk.toNat ≤ config.maxResultWindow.toNat →
        ∃ request body, cluster.scrollRequest query chunk = .ok request ∧
          request.body = some body ∧ query.AskedBy body 0 chunk := by
  have hcluster : create config = .ok ⟨config, dialect⟩ :=
    create_eq_ok_iff.mpr ⟨hvalid, hdialect, rfl⟩
  have hquery := Query.create_eq_ok scope predicate sorts projections routingKeys
  have hready := Query.ready_of_create hpredicate hquery
  exact ⟨⟨config, dialect⟩, _, hcluster, hquery,
    fun offset limit hsum => exists_search_askedBy hready hsum,
    exists_search_askedBy hready (defaultLimit_le_window hvalid),
    fun chunk hchunk => exists_scroll_askedBy hready hchunk⟩

/-- A predicate with a test that a scope has made and a nested object that no index declares. -/
def foreignLevel : Predicate :=
  .bool [(.must, .field Scope.deepTest), (.should, .nested "elsewhere" [] (.matchAll none))]
    (some 1) none

/-- A cluster of release 6.8 searches and scrolls up to the end of its window, with a predicate on a
nested object that none of the indexes has. -/
theorem requests_succeed_foreignLevel :
    let config : ClusterConfig := { version := some "6.8", defaultLimit := 20 }
    ∃ cluster query, create config = .ok cluster ∧
      Query.create Scope.twoLevels (some foreignLevel) [.score .ascending] [.score] ["b", "a"]
        = .ok query ∧
      (∃ request body, cluster.searchRequest query 9980 none = .ok request ∧
        request.body = some body ∧ query.AskedBy body 9980 20) ∧
      ∃ request body, cluster.scrollRequest query 10000 = .ok request ∧
        request.body = some body ∧ query.AskedBy body 0 10000 := by
  intro config
  have hvalid : config.validate = .ok () := rfl
  have hdialect : (config.parsedVersion >>= Dialect.ofVersion) = .ok .v63 := rfl
  have htest : (Predicate.field Scope.deepTest).Constructible :=
    Scope.Assembled.constructible (.field (.existsField
      (show Scope.twoLevels.existsField "a.b.c" = .ok Scope.deepTest from rfl)))
  have hnested : (Predicate.nested "elsewhere" [] (.matchAll none)).Constructible :=
    .nested (.matchAll none)
      (show Predicate.createNested "elsewhere" ["elsewhere"] (.matchAll none) = .ok _ from rfl)
  have hpredicate : ∀ p ∈ some foreignLevel, p.Constructible := by
    rintro p ⟨⟩
    exact .bool (some 1) none (by simpa using ⟨htest, hnested⟩)
  obtain ⟨cluster, query, hcluster, hquery, hsearch, -, hscroll⟩ :=
    requests_succeed hvalid hdialect Scope.twoLevels hpredicate [.score .ascending] [.score]
      ["b", "a"]
  exact ⟨cluster, query, hcluster, hquery, hsearch 9980 none (by decide),
    hscroll 10000 (by decide)⟩

end Cluster

end SearchDsl
