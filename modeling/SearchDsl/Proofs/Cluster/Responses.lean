import SearchDsl.Proofs.Cluster.Requests
import SearchDsl.Proofs.Json.Members
import SearchDsl.Proofs.Json.Nodes

/-!
# `SearchDsl.Proofs.Cluster.Responses`: which responses can be read

A search says in its body what it wants to know, and its response is read with the projections of
the query and the dialect of the cluster. `Query.AnsweredBy` describes the responses that a body
asks for. `Cluster.readResponse_answered` says that they are read hit by hit, but for those without
a total hit count. From release 7 on a cluster leaves the count out if the body declines it, and
reading needs it all the same.
-/

set_option autoImplicit false

namespace SearchDsl

/-! ### Hits -/

/-- The values of a field in the document of a hit. -/
def Projection.nodesAt (path : String) (hit : Json) : List Json :=
  Json.follow (Path.segments path) (Json.nodes? (hit.get? "_source"))

namespace Projection

/-- What a projection needs of a hit beside its index and its identifier: that a score is a number,
and that a field has one value at most, which its kind understands. -/
def AvailableIn (hit : Json) : Projection → Prop
  | reference | id | source => True
  | score => ∃ value x, hit.get? "_score" = some value ∧ value.asDouble? = some x
  | field path kind => nodesAt path hit = [] ∨
      ∃ node value, nodesAt path hit = [node] ∧ kind.decode? node = some value

/-- What a projection returns of a hit. -/
def Returns (hit : Json) : Projection → Projected → Prop
  | reference, .reference document =>
      hit.get? "_index" = some (.string document.index) ∧
        hit.get? "_id" = some (.string document.id)
  | id, .id identifier => hit.get? "_id" = some (.string identifier)
  | score, .score single => ∃ value x, hit.get? "_score" = some value ∧
      value.asDouble? = some x ∧ single = x.convert .binary32
  | field path _, .field none => nodesAt path hit = []
  | field path kind, .field (some value) =>
      ∃ node, nodesAt path hit = [node] ∧ kind.decode? node = some value
  | source, .source document => document = (hit.get? "_source").getD .null
  | _, _ => False

/-- A text is read if there is one under the key. -/
theorem textOfHit_eq_ok {hit : Json} {key text : String} (h : hit.get? key = some (.string text)) :
    textOfHit hit key = .ok text := by
  rw [textOfHit, h]
  rfl

/-- A projection whose value is there returns it, from a hit that names its document. -/
theorem extract_of_availableIn {hit : Json} {projection : Projection} {index identifier : String}
    (hindex : hit.get? "_index" = some (.string index))
    (hid : hit.get? "_id" = some (.string identifier)) (h : projection.AvailableIn hit) :
    ∃ value, extract hit projection = .ok value ∧ projection.Returns hit value := by
  cases projection with
  | reference =>
      refine ⟨.reference ⟨index, identifier⟩, ?_, hindex, hid⟩
      rw [extract, textOfHit_eq_ok hindex, textOfHit_eq_ok hid]
      rfl
  | id =>
      refine ⟨.id identifier, ?_, hid⟩
      rw [extract, textOfHit_eq_ok hid]
      rfl
  | score =>
      obtain ⟨value, x, hvalue, hx⟩ := h
      refine ⟨.score (x.convert .binary32), ?_, value, x, hvalue, hx, rfl⟩
      rw [extract, scoreOfHit?, hvalue, Option.bind_some, hx]
      rfl
  | source => exact ⟨.source _, rfl, rfl⟩
  | field path kind =>
      rcases h with hnone | ⟨node, value, hnode, hvalue⟩
      · refine ⟨.field none, ?_, hnone⟩
        rw [extract, valuesAt_eq_follow, show Json.follow _ _ = [] from hnone]
      · refine ⟨.field (some value), ?_, node, hnode, hvalue⟩
        rw [extract, valuesAt_eq_follow, show Json.follow _ _ = [node] from hnode]
        simp only [FieldKind.decode, hvalue]
        rfl

end Projection

namespace Query

/-- A hit as the projections of a query ask for it. -/
structure FitsHit (query : Query) (hit : Json) : Prop where
  index : ∃ index, hit.get? "_index" = some (.string index)
  id : ∃ id, hit.get? "_id" = some (.string id)
  available : ∀ projection ∈ query.projections, projection.AvailableIn hit

/-- What is read from a hit: its names, and one value per projection, in order. -/
structure ReadsHit (query : Query) (hit : Json) (result : SearchHit) : Prop where
  index : hit.get? "_index" = some (.string result.index)
  id : hit.get? "_id" = some (.string result.id)
  projections : List.Forall₂ (Projection.Returns hit) query.projections result.projections

/-- A hit with all that the query asks for is read, with one value per projection. -/
theorem FitsHit.exists_readHit {query : Query} {hit : Json} (h : query.FitsHit hit) :
    ∃ result, query.readHit hit = .ok result ∧ query.ReadsHit hit result := by
  obtain ⟨index, hindex⟩ := h.index
  obtain ⟨id, hid⟩ := h.id
  obtain ⟨projections, hextract, hreturns⟩ := Steps.exists_mapM_eq_ok fun projection hprojection =>
    Projection.extract_of_availableIn hindex hid (h.available projection hprojection)
  refine ⟨⟨index, id, Projection.scoreOfHit? hit, sortValuesOf hit, projections⟩, ?_, hindex, hid,
    hreturns⟩
  rw [readHit, hextract, Projection.textOfHit_eq_ok hindex, Projection.textOfHit_eq_ok hid]
  rfl

end Query

/-! ### The total hit count -/

/-- An unsigned integer of 64 bits is read back from its JSON. -/
theorem Json.asUnsigned?_int_toNat (n : UInt64) : (Json.int n.toNat).asUnsigned? = some n := by
  have hlt : (n.toNat : Int) < UInt64.size := Int.ofNat_lt.mpr n.toNat_lt_size
  show (if 0 ≤ (n.toNat : Int) ∧ (n.toNat : Int) < UInt64.size
    then some (UInt64.ofNat (n.toNat : Int).toNat) else none) = some n
  rw [if_pos ⟨Int.natCast_nonneg _, hlt⟩, Int.toNat_natCast, UInt64.ofNat_toNat]

namespace Dialect

/-- The total hit count in the format of a dialect. -/
def States (hits : Json) (count : UInt64) : Dialect → Prop
  | v7 => ∃ total, hits.get? "total" = some total ∧ total.get? "value" = some (.int count.toNat)
  | v56 | v60 | v63 => hits.get? "total" = some (.int count.toNat)

/-- A dialect reads the total hit count that is stated in its format. -/
theorem totalHits_of_states {dialect : Dialect} {hits : Json} {count : UInt64}
    (h : dialect.States hits count) : dialect.totalHits hits = .ok count.toNat := by
  cases dialect with
  | v7 =>
      obtain ⟨total, htotal, hvalue⟩ := h
      have hcount : (total.get? "value").bind Json.asUnsigned? = some count := by
        rw [hvalue, Option.bind_some, Json.asUnsigned?_int_toNat]
      simp only [totalHits, htotal, hcount]
  | v56 | v60 | v63 =>
      have hcount : (hits.get? "total").bind Json.asUnsigned? = some count := by
        rw [show hits.get? "total" = some (.int count.toNat) from h, Option.bind_some,
          Json.asUnsigned?_int_toNat]
      simp only [totalHits, hcount]

end Dialect

/-- Whether a body says that the total hit count is not wanted. -/
def Json.DeclinesTotal (body : Json) : Prop := body.get? "track_total_hits" = some (.bool false)

namespace Query

variable {query : Query} {dialect : Dialect} {config : ClusterConfig} {offset : UInt64}
  {limit : Option UInt64} {body : Json}

/-- What a body says about the total hit count. -/
theorem get?_body_trackTotalHits (h : query.body dialect config offset limit = .ok body) :
    body.get? "track_total_hits"
      = if dialect.tracksTotalHits then some (.bool config.trackTotalHits) else none := by
  obtain ⟨clause, source, sorts, scores, -, rfl⟩ := exists_members_of_body h
  -- The member is the last one, so all others are passed over.
  have hlast : ∀ value : Option Json,
      Json.find? "track_total_hits" (Json.member? "track_total_hits" value) = value := by
    intro value
    cases value <;> rfl
  simp only [Json.get?, List.append_assoc, List.cons_append, List.nil_append]
  rw [Json.find?_member?_append (by decide), Json.find?_cons_of_ne (by decide),
    Json.find?_cons_of_ne (by decide), Json.find?_cons_of_ne (by decide),
    Json.find?_member?_append (by decide), Json.find?_member?_append (by decide), hlast]

/-- Only a body for release 7 or later declines the count, and only if the configuration does. -/
theorem declinesTotal_iff (h : query.body dialect config offset limit = .ok body) :
    body.DeclinesTotal ↔ dialect = .v7 ∧ config.trackTotalHits = false := by
  rw [Json.DeclinesTotal, get?_body_trackTotalHits h]
  cases dialect <;> simp [Dialect.tracksTotalHits]

end Query

/-! ### Responses -/

/-- A response, its hits object and the hits in it, as a body asks for them. A total hit count that
the body declines is left out. -/
structure Query.AnsweredBy (query : Query) (dialect : Dialect) (body response hits : Json)
    (items : List Json) : Prop where
  hits_eq : response.get? "hits" = some hits
  items_eq : hits.get? "hits" = some (.array items)
  fits : ∀ hit ∈ items, query.FitsHit hit
  noTotal : body.DeclinesTotal → hits.get? "total" = none
  total : ¬body.DeclinesTotal → ∃ count, dialect.States hits count

namespace Query

variable {query : Query} {dialect : Dialect} {body response hits : Json} {items : List Json}

/-- A response that states the total hit count is read hit by hit, and the page has that count. -/
theorem AnsweredBy.exists_readResponse (h : query.AnsweredBy dialect body response hits items)
    {count : UInt64} (hcount : dialect.States hits count) :
    ∃ page, query.readResponse dialect response = .ok page ∧ page.total = count.toNat ∧
      List.Forall₂ query.ReadsHit items page.hits := by
  obtain ⟨results, hresults, hread⟩ :=
    Steps.exists_mapM_eq_ok fun hit hhit => (h.fits hit hhit).exists_readHit
  unfold readResponse
  simp only [h.hits_eq, h.items_eq, Option.bind_some, Json.asArray?, pure_bind]
  rw [Dialect.totalHits_of_states hcount, hresults]
  exact ⟨_, rfl, rfl, hread⟩

/-- For release 7 and later a response without the count is refused, also where the body has
declined it. -/
theorem AnsweredBy.readResponse_eq_error (h : query.AnsweredBy .v7 body response hits items)
    (hdeclines : body.DeclinesTotal) :
    query.readResponse .v7 response = .error (.response .missingTotal) := by
  unfold readResponse
  simp only [h.hits_eq, pure_bind, Dialect.totalHits, h.noTotal hdeclines]
  rfl

end Query

namespace Cluster

/-- A body that the cluster sends for a query, to search or to open a scroll. -/
def Sends (cluster : Cluster) (query : Query) (body : Json) : Prop :=
  ∃ request, request.body = some body ∧
    ((∃ offset limit, cluster.searchRequest query offset limit = .ok request) ∨
      ∃ chunk, cluster.scrollRequest query chunk = .ok request)

variable {cluster : Cluster} {query : Query} {body : Json}

/-- Whatever a cluster sends for a query is a body of the query. -/
theorem Sends.exists_body (h : cluster.Sends query body) :
    ∃ offset limit, query.body cluster.dialect cluster.config offset limit = .ok body := by
  obtain ⟨request, hrequest, ⟨offset, limit, h⟩ | ⟨chunk, h⟩⟩ := h
  · obtain ⟨sent, hsent, hbody⟩ := exists_body_of_searchRequest h
    obtain rfl := Option.some.inj (hrequest.symm.trans hsent)
    exact ⟨offset, limit, hbody⟩
  · obtain ⟨sent, hsent, hbody⟩ := exists_body_of_scrollRequest h
    obtain rfl := Option.some.inj (hrequest.symm.trans hsent)
    exact ⟨0, some chunk, hbody⟩

/-- A cluster with a valid configuration has something to send for every query that is ready. -/
theorem exists_sends (hvalid : cluster.config.validate = .ok ()) (hquery : query.Ready) :
    ∃ body, cluster.Sends query body := by
  obtain ⟨request, body, hrequest, hbody, -⟩ :=
    exists_search_askedBy hquery (defaultLimit_le_window hvalid)
  exact ⟨body, request, hbody, .inl ⟨0, none, hrequest⟩⟩

/-- Of the bodies that are sent, those from release 7 on decline the count, if the configuration
does not track it. -/
theorem Sends.declinesTotal_iff (h : cluster.Sends query body) :
    body.DeclinesTotal ↔ cluster.dialect = .v7 ∧ cluster.config.trackTotalHits = false := by
  obtain ⟨offset, limit, hbody⟩ := h.exists_body
  exact Query.declinesTotal_iff hbody

/-- A response that a body asks for is read hit by hit, each hit with one value per projection, both
in order, and with the total hit count that it states. The exception are bodies that decline the
count. These are sent from release 7 on by configurations that do not track it, and no response to
them is read. -/
theorem readResponse_answered (hsends : cluster.Sends query body) {response hits : Json}
    {items : List Json} (h : query.AnsweredBy cluster.dialect body response hits items) :
    (body.DeclinesTotal ↔ cluster.dialect = .v7 ∧ cluster.config.trackTotalHits = false) ∧
    (¬body.DeclinesTotal → ∃ page count, cluster.readResponse query response = .ok page ∧
      cluster.dialect.States hits count ∧ page.total = count.toNat ∧
        List.Forall₂ query.ReadsHit items page.hits) ∧
    (body.DeclinesTotal →
      cluster.readResponse query response = .error (.response .missingTotal)) := by
  refine ⟨hsends.declinesTotal_iff, fun hasks => ?_, fun hdeclined => ?_⟩
  · obtain ⟨count, hcount⟩ := h.total hasks
    obtain ⟨page, hpage, htotal, hread⟩ := h.exists_readResponse hcount
    exact ⟨page, count, hpage, hcount, htotal, hread⟩
  · have hdialect := (hsends.declinesTotal_iff.mp hdeclined).1
    rw [hdialect] at h
    rw [readResponse, hdialect]
    exact h.readResponse_eq_error hdeclined

/-- A query for the texts in nested objects. -/
def nestedTexts : Query where
  indexes := ["shallow", "deep"]
  predicate := .matchAll none
  sorts := []
  projections := [.field "a.t" .text, .score]
  routingKeys := []

/-- A hit with a text in one of two nested objects. -/
def nestedHit : Json :=
  .object [("_id", .string "1"), ("_index", .string "shallow"), ("_score", .int 1),
    ("_source", .single "a" (.array [.object [], .single "t" (.array [.null, .string "x"])]))]

/-- The hits object with this hit. -/
def nestedHits : Json :=
  .object [("hits", .array [nestedHit]),
    ("total", .object [("relation", .string "eq"), ("value", .int 1)])]

/-- A text in one of two nested objects, beside a null, is read from the response to a search that
tracks the total. -/
theorem readResponse_answered_nestedHit :
    ∃ cluster body page, create {} = .ok cluster ∧
      Query.create Scope.twoLevels none [] [.field "a.t" .text, .score] [] = .ok nestedTexts ∧
      cluster.Sends nestedTexts body ∧ nestedTexts.AnsweredBy cluster.dialect body
        (.single "hits" nestedHits) nestedHits [nestedHit] ∧
      cluster.readResponse nestedTexts (.single "hits" nestedHits) = .ok page ∧
      List.Forall₂ nestedTexts.ReadsHit [nestedHit] page.hits := by
  have hcluster : create {} = .ok ⟨{}, .v7⟩ := rfl
  have hquery : Query.create Scope.twoLevels none [] [.field "a.t" .text, .score] []
    = .ok nestedTexts := rfl
  obtain ⟨body, hsends⟩ : ∃ body, Sends ⟨{}, .v7⟩ nestedTexts body :=
    exists_sends rfl (Query.ready_of_create (by simp) hquery)
  have hasks : ¬body.DeclinesTotal := hsends.declinesTotal_iff.not.mpr (by decide)
  have hfits : nestedTexts.FitsHit nestedHit := by
    refine ⟨⟨"shallow", rfl⟩, ⟨"1", rfl⟩, List.forall_mem_cons.mpr ⟨?_,
      List.forall_mem_singleton.mpr ?_⟩⟩
    · exact .inr ⟨.string "x", .text "x", rfl, rfl⟩
    · exact ⟨.int 1, _, rfl, rfl⟩
  have hanswered : nestedTexts.AnsweredBy .v7 body (.single "hits" nestedHits) nestedHits
      [nestedHit] :=
    { hits_eq := rfl
      items_eq := rfl
      fits := List.forall_mem_singleton.mpr hfits
      noTotal := fun hdeclines => absurd hdeclines hasks
      total := fun _ => ⟨1, _, rfl, rfl⟩ }
  obtain ⟨-, hread, -⟩ := readResponse_answered hsends hanswered
  obtain ⟨page, count, hpage, -, -, hhits⟩ := hread hasks
  exact ⟨_, body, page, hcluster, hquery, hsends, hanswered, hpage, hhits⟩

/-- A response without hits and without a total hit count. -/
def untrackedPage : Json :=
  .object [("hits", .object [("hits", .array []), ("max_score", .null)]),
    ("timed_out", .bool false), ("took", .int 1)]

/-- With a configuration that does not track the count, the body of a search declines it, and the
response that leaves it out as asked is refused. -/
theorem readResponse_untrackedPage :
    ∃ cluster body hits, create { trackTotalHits := false } = .ok cluster ∧
      Query.create Scope.twoLevels none [] [.field "a.t" .text, .score] [] = .ok nestedTexts ∧
      cluster.Sends nestedTexts body ∧
      nestedTexts.AnsweredBy cluster.dialect body untrackedPage hits [] ∧
      ¬∃ page, cluster.readResponse nestedTexts untrackedPage = .ok page := by
  have hquery : Query.create Scope.twoLevels none [] [.field "a.t" .text, .score] []
    = .ok nestedTexts := rfl
  obtain ⟨body, hsends⟩ :
      ∃ body, Sends ⟨{ trackTotalHits := false }, .v7⟩ nestedTexts body :=
    exists_sends rfl (Query.ready_of_create (by simp) hquery)
  have hdeclines : body.DeclinesTotal := hsends.declinesTotal_iff.mpr ⟨rfl, rfl⟩
  have hanswered : nestedTexts.AnsweredBy .v7 body untrackedPage
      (.object [("hits", .array []), ("max_score", .null)]) [] :=
    { hits_eq := rfl
      items_eq := rfl
      fits := by simp
      noTotal := fun _ => rfl
      total := fun hasks => absurd hdeclines hasks }
  refine ⟨_, body, _, rfl, hquery, hsends, hanswered, fun ⟨page, hpage⟩ => ?_⟩
  exact absurd ((hanswered.readResponse_eq_error hdeclines).symm.trans hpage) (by simp)

end Cluster

end SearchDsl
