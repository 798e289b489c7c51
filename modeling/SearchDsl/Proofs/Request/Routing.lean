import Mathlib.Data.List.Sort
import SearchDsl.Request.Search

/-!
# `SearchDsl.Proofs.Request.Routing`: what a routing parameter says of its keys

The routing keys of a search are sent as one parameter, in increasing order and with commas between
them. However they were given, only the set of them counts, since a set of texts has one strictly
increasing list (`Text.Enumerates.unique`).

A shard is looked for under each text between two commas (`Request.keysOf`). Of joined texts these
are the pieces of each of them (`Request.keysOf_intercalate`), so the parameter names exactly the
keys that were given if none of them has a comma, and otherwise never does
(`Request.flatMap_keysOf_eq_self_iff`). A key with a comma is taken for several keys, and a search
with that key cannot be told from a search with those.
-/

set_option autoImplicit false

namespace SearchDsl

namespace Text

/-- A list of all given texts in strictly increasing order. -/
structure Enumerates (texts given : List String) : Prop where
  increasing : texts.Pairwise (· < ·)
  mem_iff : ∀ text, text ∈ texts ↔ text ∈ given

/-- Sorting the given texts without repetitions makes such a list. -/
theorem enumerates_sortedDistinct (given : List String) :
    Enumerates (sortedDistinct given) given :=
  ⟨pairwise_lt_sortedDistinct given, fun _ => mem_sortedDistinct⟩

/-- The same texts, in whatever order and however often they are given, have one such list. -/
theorem Enumerates.unique {texts others given : List String} (h : Enumerates texts given)
    (hothers : Enumerates others given) : texts = others :=
  h.increasing.eq_of_mem_iff hothers.increasing fun text =>
    (h.mem_iff text).trans (hothers.mem_iff text).symm

/-- A list of given texts is one for all others that make up the same set. -/
theorem Enumerates.of_mem_iff {texts given others : List String} (h : Enumerates texts given)
    (hgiven : ∀ text, text ∈ given ↔ text ∈ others) : Enumerates texts others :=
  ⟨h.increasing, fun text => (h.mem_iff text).trans (hgiven text)⟩

/-- Without texts there is nothing to list. -/
theorem Enumerates.ne_nil {texts given : List String} (h : Enumerates texts given)
    (hgiven : given ≠ []) : texts ≠ [] := by
  obtain ⟨text, htext⟩ := List.exists_mem_of_ne_nil given hgiven
  exact List.ne_nil_of_mem ((h.mem_iff text).mpr htext)

end Text

namespace Request

/-! ### The texts between commas -/

/-- The keys that a routing parameter names: the texts between its commas. -/
def keysOf (parameter : String) : List String :=
  (parameter.toList.splitOn ',').map String.ofList

/-- A comma separates the keys before it from those behind it. -/
theorem keysOf_append (a b : String) : keysOf (a ++ "," ++ b) = keysOf a ++ keysOf b := by
  have hcomma : (a ++ "," ++ b).toList = a.toList ++ ',' :: b.toList := by simp
  rw [keysOf, hcomma, List.splitOn_append_cons_self, List.map_append]
  rfl

/-- Joined texts name the pieces of each of them. -/
theorem keysOf_intercalate {keys : List String} (h : keys ≠ []) :
    keysOf (",".intercalate keys) = keys.flatMap keysOf := by
  induction keys with
  | nil => exact absurd rfl h
  | cons key keys ih =>
      cases keys with
      | nil => rw [String.intercalate_singleton, List.flatMap_singleton]
      | cons next keys =>
          rw [String.intercalate_cons_cons, keysOf_append, ih (List.cons_ne_nil next keys)]
          exact List.flatMap_cons.symm

/-- The pieces joined give the text back. -/
theorem intercalate_keysOf (text : String) : ",".intercalate (keysOf text) = text := by
  refine String.toList_inj.mp ?_
  rw [String.toList_intercalate, keysOf, List.map_map]
  have hchars : (String.toList ∘ String.ofList) = id := funext fun _ => String.toList_ofList
  rw [hchars, List.map_id]
  exact List.intercalate_splitOn ','

/-- The keys tell the parameter. -/
theorem keysOf_inj {a b : String} : keysOf a = keysOf b ↔ a = b :=
  ⟨fun h => by rw [← intercalate_keysOf a, h, intercalate_keysOf], congrArg keysOf⟩

/-- A text without a comma is one piece. -/
theorem keysOf_of_not_mem {key : String} (h : ',' ∉ key.toList) : keysOf key = [key] := by
  rw [keysOf, List.splitOn_eq_singleton h, List.map_singleton, String.ofList_toList]

/-- No comma is left in a piece. -/
theorem not_mem_of_mem_splitOn {chars piece : List Char} (h : piece ∈ chars.splitOn ',') :
    ',' ∉ piece := by
  induction chars generalizing piece with
  | nil =>
      rw [List.splitOn_nil, List.mem_singleton] at h
      exact h ▸ List.not_mem_nil
  | cons c chars ih =>
      rw [List.splitOn_cons_eq_if_modifyHead] at h
      split at h
      · rcases List.mem_cons.mp h with rfl | hrest
        · exact List.not_mem_nil
        · exact ih hrest
      · rename_i hc
        -- The character goes to the first of the pieces of the rest.
        obtain ⟨first, rest, hsplit⟩ :=
          List.exists_cons_of_ne_nil (List.splitOn_ne_nil ',' chars)
        rw [hsplit, List.modifyHead_cons] at h
        rcases List.mem_cons.mp h with rfl | hrest
        · have hfirst : ',' ∉ first := ih (hsplit ▸ List.mem_cons_self)
          exact List.not_mem_cons_of_ne_of_not_mem (fun heq => hc (beq_iff_eq.mpr heq.symm)) hfirst
        · exact ih (hsplit ▸ List.mem_cons_of_mem _ hrest)

/-- Keys are named as they are exactly if none of them has a comma. -/
theorem flatMap_keysOf_eq_self_iff {keys : List String} :
    keys.flatMap keysOf = keys ↔ ∀ key ∈ keys, ',' ∉ key.toList := by
  constructor
  · intro h key hkey
    rw [← h] at hkey
    obtain ⟨whole, -, hpiece⟩ := List.mem_flatMap.mp hkey
    obtain ⟨piece, hsplit, rfl⟩ := List.mem_map.mp hpiece
    rw [String.toList_ofList]
    exact not_mem_of_mem_splitOn hsplit
  · intro h
    induction keys with
    | nil => rfl
    | cons key keys ih =>
        obtain ⟨hkey, hkeys⟩ := List.forall_mem_cons.mp h
        rw [List.flatMap_cons, keysOf_of_not_mem hkey, ih hkeys, List.singleton_append]

/-! ### Searches with routing keys -/

section Search

variable (dialect : Dialect) (call : SearchCall)

/-- All keys that were added stand behind those that were there before. -/
theorem foldl_addRoutingKeys (calls : List (List String)) :
    calls.foldl SearchCall.addRoutingKeys call
      = { call with routingKeys := call.routingKeys ++ calls.flatten } := by
  induction calls generalizing call with
  | nil => simp
  | cons keys calls ih =>
      rw [List.foldl_cons, ih, List.flatten_cons, SearchCall.addRoutingKeys, List.append_assoc]

/-- The routing parameter of a search is the joined list of its keys. -/
theorem exists_search_routing (hindexes : call.indexes ≠ []) (hgiven : call.routingKeys ≠ []) :
    ∃ request, search dialect call = .ok request ∧
      request.params.lookup "routing"
        = some (",".intercalate (Text.sortedDistinct call.routingKeys)) := by
  unfold search
  rw [if_neg hindexes]
  refine ⟨_, rfl, ?_⟩
  -- The parameter before it has another name.
  have hother : ∀ value, (param? "allow_partial_search_results" value).lookup "routing" = none :=
    fun value => by cases value <;> simp [param?]
  rw [if_neg hgiven, List.lookup_append, List.lookup_append, hother]
  simp [param?]

/-- Of the routing keys nothing but their joined list is seen. -/
theorem search_routing_congr {given others : List String} (hgiven : given ≠ [])
    (hothers : others ≠ [])
    (h : ",".intercalate (Text.sortedDistinct given)
      = ",".intercalate (Text.sortedDistinct others)) :
    search dialect { call with routingKeys := given }
      = search dialect { call with routingKeys := others } := by
  simp only [search, if_neg hgiven, if_neg hothers, h]

/-- Two searches that have the same fields but for their keys are the same exactly if the texts
between the commas of their routing parameters are. -/
theorem search_eq_iff_pieces (hindexes : call.indexes ≠ [])
    {given others keys otherKeys : List String} (hgiven : given ≠ []) (hothers : others ≠ [])
    (hkeys : Text.Enumerates keys given) (hotherKeys : Text.Enumerates otherKeys others) :
    search dialect { call with routingKeys := others }
        = search dialect { call with routingKeys := given } ↔
      otherKeys.flatMap keysOf = keys.flatMap keysOf := by
  rw [← keysOf_intercalate (hkeys.ne_nil hgiven), ← keysOf_intercalate (hotherKeys.ne_nil hothers),
    keysOf_inj]
  obtain rfl := hkeys.unique (Text.enumerates_sortedDistinct given)
  obtain rfl := hotherKeys.unique (Text.enumerates_sortedDistinct others)
  constructor
  · intro heq
    obtain ⟨request, hrequest, hrouting⟩ :=
      exists_search_routing dialect { call with routingKeys := given } hindexes hgiven
    obtain ⟨other, hother, hotherRouting⟩ :=
      exists_search_routing dialect { call with routingKeys := others } hindexes hothers
    -- Equal requests have equal parameters.
    obtain rfl := Except.ok.inj (hrequest.symm.trans (heq.symm.trans hother))
    exact Option.some.inj (hotherRouting.symm.trans hrouting)
  · exact search_routing_congr dialect call hothers hgiven

end Search

/-- What a search says of the keys that were added to it. The texts between the commas of its
routing parameter are the pieces of the distinct keys, taken in increasing order. They are these
keys themselves exactly if no key has a comma in it. A search that differs only in its keys is the
same one exactly if its keys have the same pieces. That is so for the same set of keys, and for keys
without commas only then. -/
theorem search_routing_pieces (dialect : Dialect) {call : SearchCall}
    (hindexes : call.indexes ≠ []) (hnew : call.routingKeys = []) {calls : List (List String)}
    (hkeys : calls.flatten ≠ []) :
    ∃ request keys text,
      search dialect (calls.foldl SearchCall.addRoutingKeys call) = .ok request ∧
      Text.Enumerates keys calls.flatten ∧
      request.params.lookup "routing" = some text ∧
      keysOf text = keys.flatMap keysOf ∧
      (keysOf text = keys ↔ ∀ key ∈ calls.flatten, ',' ∉ key.toList) ∧
      ∀ others : List (List String), others.flatten ≠ [] →
        ∃ otherKeys, Text.Enumerates otherKeys others.flatten ∧
          (search dialect (others.foldl SearchCall.addRoutingKeys call) = .ok request ↔
            otherKeys.flatMap keysOf = keys.flatMap keysOf) ∧
          ((∀ key, key ∈ others.flatten ↔ key ∈ calls.flatten) →
            search dialect (others.foldl SearchCall.addRoutingKeys call) = .ok request) ∧
          ((∀ key ∈ calls.flatten ++ others.flatten, ',' ∉ key.toList) →
            (search dialect (others.foldl SearchCall.addRoutingKeys call) = .ok request ↔
              ∀ key, key ∈ others.flatten ↔ key ∈ calls.flatten)) := by
  have hcalls : ∀ calls : List (List String), calls.foldl SearchCall.addRoutingKeys call
      = { call with routingKeys := calls.flatten } := fun calls => by
    rw [foldl_addRoutingKeys, hnew, List.nil_append]
  simp only [hcalls]
  have hlisted := Text.enumerates_sortedDistinct calls.flatten
  obtain ⟨request, hrequest, hrouting⟩ :=
    exists_search_routing dialect { call with routingKeys := calls.flatten } hindexes hkeys
  have hpieces := keysOf_intercalate (hlisted.ne_nil hkeys)
  refine ⟨request, _, _, hrequest, hlisted, hrouting, hpieces, ?_, fun others hothers => ?_⟩
  · rw [hpieces, flatMap_keysOf_eq_self_iff]
    exact forall_congr' fun key => imp_congr_left (hlisted.mem_iff key)
  · have hotherListed := Text.enumerates_sortedDistinct others.flatten
    have hiff : search dialect { call with routingKeys := others.flatten } = .ok request ↔
        (Text.sortedDistinct others.flatten).flatMap keysOf
          = (Text.sortedDistinct calls.flatten).flatMap keysOf := by
      rw [← hrequest]
      exact search_eq_iff_pieces dialect call hindexes hkeys hothers hlisted hotherListed
    have hsame : (∀ key, key ∈ others.flatten ↔ key ∈ calls.flatten) →
        search dialect { call with routingKeys := others.flatten } = .ok request := fun hset => by
      rw [hiff, (hotherListed.of_mem_iff hset).unique hlisted]
    refine ⟨_, hotherListed, hiff, hsame, fun hcommas => ⟨fun heq key => ?_, hsame⟩⟩
    -- Without commas the pieces are the keys, so both lists are the same.
    obtain ⟨hclean, hotherClean⟩ := List.forall_mem_append.mp hcommas
    have heqLists := hiff.mp heq
    rw [flatMap_keysOf_eq_self_iff.mpr fun key hkey =>
        hotherClean key ((hotherListed.mem_iff key).mp hkey),
      flatMap_keysOf_eq_self_iff.mpr fun key hkey => hclean key ((hlisted.mem_iff key).mp hkey)]
      at heqLists
    rw [← hotherListed.mem_iff, heqLists, hlisted.mem_iff]

/-- A search of one index, without routing keys yet. -/
def bookSearch : SearchCall where
  indexes := ["books"]
  body := .object [("query", .single "match_all" (.object []))]

/-- Keys that are given twice, and in two orders. -/
theorem search_routing_pieces_repeatedKeys :
    bookSearch.indexes ≠ [] ∧ bookSearch.routingKeys = [] ∧
      ∃ request text,
        search .v7 ([["r2"], [], ["r1", "r2"]].foldl SearchCall.addRoutingKeys bookSearch)
          = .ok request ∧
        request.params.lookup "routing" = some text ∧ keysOf text = ["r1", "r2"] ∧
        search .v7 ([["r1", "r2"]].foldl SearchCall.addRoutingKeys bookSearch) = .ok request := by
  have hindexes : bookSearch.indexes ≠ [] := List.cons_ne_nil _ _
  obtain ⟨request, keys, text, hrequest, hkeys, htext, -, hnamed, hothers⟩ :=
    search_routing_pieces .v7 hindexes rfl
      (show [["r2"], [], ["r1", "r2"]].flatten ≠ [] from List.cons_ne_nil _ _)
  obtain ⟨-, -, -, hsame, -⟩ := hothers [["r1", "r2"]] (List.cons_ne_nil _ _)
  have hlisted : Text.Enumerates ["r1", "r2"] [["r2"], [], ["r1", "r2"]].flatten :=
    ⟨by decide, by simp⟩
  refine ⟨hindexes, rfl, request, text, hrequest, htext, ?_, hsame (by simp)⟩
  obtain rfl := hkeys.unique hlisted
  exact hnamed.mpr (by decide)

/-- One key with a comma in it is sent as the parameter for two keys, so the text between its commas
is not that key, and the search is the one for the two. -/
theorem search_routing_confused :
    ∃ request,
      search .v7 (bookSearch.addRoutingKeys ["east,north"]) = .ok request ∧
      search .v7 (bookSearch.addRoutingKeys ["east", "north"]) = .ok request ∧
      request.params.lookup "routing" = some "east,north" ∧
      Text.Enumerates ["east,north"] ["east,north"] ∧ keysOf "east,north" ≠ ["east,north"] ∧
      ¬∀ key, key ∈ ["east,north"] ↔ key ∈ ["east", "north"] := by
  have hone : Text.Enumerates ["east,north"] ["east,north"] :=
    ⟨List.pairwise_singleton _ _, fun _ => Iff.rfl⟩
  have htwo : Text.Enumerates ["east", "north"] ["east", "north"] := ⟨by decide, fun _ => Iff.rfl⟩
  have hindexes : bookSearch.indexes ≠ [] := List.cons_ne_nil _ _
  obtain ⟨request, hrequest, hrouting⟩ := exists_search_routing .v7
    (bookSearch.addRoutingKeys ["east,north"]) hindexes (List.cons_ne_nil _ _)
  have hsame := (search_eq_iff_pieces .v7 bookSearch hindexes (List.cons_ne_nil _ _)
    (List.cons_ne_nil _ _) hone htwo).mpr (by decide)
  refine ⟨request, hrequest, hsame.trans hrequest, ?_, hone, by decide, fun hall => ?_⟩
  · rw [hrouting]
    exact congrArg (fun keys => some (",".intercalate keys))
      ((Text.enumerates_sortedDistinct _).unique hone)
  · have heast := (hall "east").mpr List.mem_cons_self
    exact absurd heast (by decide)

end Request

end SearchDsl
