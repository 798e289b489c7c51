import SearchDsl.Proofs.Json.Members
import SearchDsl.Proofs.Predicate.Contexts
import SearchDsl.Proofs.Predicate.Leaves

/-!
# `SearchDsl.Proofs.Predicate.Clauses`: the clauses of a bool predicate by occurrence

Clauses are added to a bool predicate one by one, in any mix of occurrences, and are rendered in
four groups. A group is rendered from what was added with its occurrence and from nothing else
(`Predicate.clausesOf_buildClauses`), so how the four were interleaved is not seen any more
(`Predicate.build_addClauses_congr`).

The members of a bool query stand in the order of their keys, the options of the predicate among the
groups (`Predicate.boolEntries`). One more clause changes the member of its occurrence alone
(`Predicate.boolMembers_append`).
-/

set_option autoImplicit false

namespace SearchDsl.Predicate

/-- Adds clauses to a bool predicate, one after the other. -/
def addClauses (target : Predicate) (additions : List (Occur × Predicate)) : Predicate :=
  additions.foldl (fun current addition => current.addClause addition.1 addition.2) target

/-- What was added with an occurrence, in order. -/
def added (occur : Occur) (additions : List (Occur × Predicate)) : List Predicate :=
  (additions.filter fun addition => addition.1 = occur).map Prod.snd

/-- Clauses are put behind those that are there, and the options stay. -/
theorem addClauses_bool (clauses additions : List (Occur × Predicate)) (minimum : Option UInt32)
    (boost : Option Single) :
    addClauses (bool clauses minimum boost) additions
      = bool (clauses ++ additions) minimum boost := by
  induction additions generalizing clauses with
  | nil => rw [List.append_nil]; rfl
  | cons addition additions ih =>
      rw [List.append_cons, ← ih]
      rfl

/-- Everything that was added was added with one of the occurrences. -/
theorem length_added_add (additions : List (Occur × Predicate)) :
    (added .must additions).length + (added .should additions).length
      + (added .mustNot additions).length + (added .filter additions).length
        = additions.length := by
  have hlength := (filter_occur_perm additions).length_eq
  simp only [List.length_append] at hlength
  simp only [added, List.length_map]
  omega

/-- A group is rendered from what was added with its occurrence. -/
theorem clausesOf_buildClauses (occur : Occur) (context : Option String)
    (clauses : List (Occur × Predicate)) :
    clausesOf occur (buildClauses context clauses)
      = (added occur clauses).mapM (build context) := by
  rw [clausesOf, buildClauses_eq_map, List.filter_map, List.mapM_map, added, List.mapM_map]
  rfl

/-- Predicates with the same clauses in each group render alike, or fail alike. -/
theorem build_addClauses_congr {additions others : List (Occur × Predicate)}
    (h : ∀ occur, added occur others = added occur additions) (minimum : Option UInt32)
    (boost : Option Single) (context : Option String) :
    (addClauses (bool [] minimum boost) others).build context
      = (addClauses (bool [] minimum boost) additions).build context := by
  simp only [addClauses_bool, List.nil_append, build, boolQuery, clausesOf_buildClauses, h]

/-! ### The members of a bool query -/

section Members

variable {minimum : Option UInt32} {boost : Option Single} {queries : Occur → List Json}

/-- The value of the member for a group of clauses, none for an empty group. -/
def group (clauses : List Json) : Option Json :=
  if clauses = [] then none else some (.array clauses)

/-- All members that a bool query can have, in the order of their keys. -/
def boolEntries (minimum : Option UInt32) (boost : Option Single) (queries : Occur → List Json) :
    List (String × Option Json) :=
  [("boost", boost.map .ofSingle),
    (Occur.filter.key, group (queries .filter)),
    ("minimum_should_match", minimum.map fun n => .int n.toNat),
    (Occur.must.key, group (queries .must)),
    (Occur.mustNot.key, group (queries .mustNot)),
    (Occur.should.key, group (queries .should))]

/-- The members of a bool query with these clauses in its groups. -/
def boolMembers (minimum : Option UInt32) (boost : Option Single) (queries : Occur → List Json) :
    List (String × Json) :=
  Json.present (boolEntries minimum boost queries)

/-- The member for a group is set if the group has clauses. -/
theorem clauseMember_eq (occur : Occur) (clauses : List Json) :
    clauseMember occur clauses = Json.member? occur.key (group clauses) := by
  unfold clauseMember group
  split <;> rfl

/-- The members of a bool query have different keys, in increasing order. -/
theorem boolEntries_sorted : (boolEntries minimum boost queries).Pairwise fun a b => a.1 < b.1 := by
  have hkeys : ["boost", "filter", "minimum_should_match", "must", "must_not", "should"].Pairwise
      (· < ·) := by decide
  exact List.pairwise_map.mp (show ((boolEntries minimum boost queries).map Prod.fst).Pairwise _
    from hkeys)

/-- There is an entry for each occurrence. -/
theorem mem_boolEntries (occur : Occur) :
    (occur.key, group (queries occur)) ∈ boolEntries minimum boost queries := by
  cases occur <;> simp [boolEntries]

/-- The member of an occurrence holds its group. -/
theorem find?_boolMembers (occur : Occur) :
    Json.find? occur.key (boolMembers minimum boost queries) = group (queries occur) :=
  Json.find?_present boolEntries_sorted (mem_boolEntries occur)

/-- One more clause is set as the last one of its group, and nothing else changes. -/
theorem boolMembers_append (occur : Occur) (query : Json) :
    boolMembers minimum boost (Function.update queries occur (queries occur ++ [query]))
      = Json.put occur.key (.array (queries occur ++ [query]))
          (boolMembers minimum boost queries) := by
  unfold boolMembers
  rw [Json.put_present boolEntries_sorted (List.mem_map_of_mem (mem_boolEntries occur))]
  cases occur <;> simp [boolEntries, group, Occur.key, Function.update]

/-- A bool predicate renders if each group does, to a query with these groups. -/
theorem build_bool_eq_ok_iff {clauses : List (Occur × Predicate)} {context : Option String}
    {json : Json} :
    (bool clauses minimum boost).build context = .ok json ↔
      ∃ queries : Occur → List Json,
        (∀ occur, (added occur clauses).mapM (build context) = .ok (queries occur)) ∧
          json = .single "bool" (.object (boolMembers minimum boost queries)) := by
  simp only [build, boolQuery, clausesOf_buildClauses, Steps.bind_eq_ok_iff, Steps.pure_eq_ok_iff]
  constructor
  · rintro ⟨must, hmust, should, hshould, mustNot, hmustNot, filter, hfilter, rfl⟩
    have hgroups : ∀ occur, ∃ group, (added occur clauses).mapM (build context) = .ok group :=
      fun occur => by
        cases occur with
        | must => exact ⟨must, hmust⟩
        | should => exact ⟨should, hshould⟩
        | mustNot => exact ⟨mustNot, hmustNot⟩
        | filter => exact ⟨filter, hfilter⟩
    choose queries hqueries using hgroups
    refine ⟨queries, hqueries, ?_⟩
    obtain rfl := Except.ok.inj ((hqueries .must).symm.trans hmust)
    obtain rfl := Except.ok.inj ((hqueries .should).symm.trans hshould)
    obtain rfl := Except.ok.inj ((hqueries .mustNot).symm.trans hmustNot)
    obtain rfl := Except.ok.inj ((hqueries .filter).symm.trans hfilter)
    simp [boolMembers, boolEntries, Json.present, clauseMember_eq]
  · rintro ⟨queries, hqueries, rfl⟩
    refine ⟨_, hqueries .must, _, hqueries .should, _, hqueries .mustNot, _, hqueries .filter, ?_⟩
    simp [boolMembers, boolEntries, Json.present, clauseMember_eq]

end Members

/-- A bool predicate renders to the clauses of each occurrence in the order in which they were
added, under the key of the occurrence, which is left out if there are none. So no clause is lost or
comes twice. What was added with other occurrences in between makes no difference, in any context.
One more clause that renders in the context becomes the last one of its occurrence, and nothing else
changes. -/
theorem build_addClauses_by_occurrence {additions : List (Occur × Predicate)}
    {minimum : Option UInt32} {boost : Option Single} {context : Option String} {json : Json}
    (h : (addClauses (bool [] minimum boost) additions).build context = .ok json) :
    ∃ (queries : Occur → List Json) (members : List (String × Json)),
      json = .single "bool" (.object members) ∧
      (∀ occur,
        List.Forall₂ (fun p query => p.build context = .ok query) (added occur additions)
          (queries occur) ∧
        Json.find? occur.key members
          = if added occur additions = [] then none else some (.array (queries occur))) ∧
      (queries .must).length + (queries .should).length + (queries .mustNot).length
        + (queries .filter).length = additions.length ∧
      (∀ others, (∀ occur, added occur others = added occur additions) → ∀ context,
        (addClauses (bool [] minimum boost) others).build context
          = (addClauses (bool [] minimum boost) additions).build context) ∧
      ∀ occur p query, p.build context = .ok query →
        ((addClauses (bool [] minimum boost) additions).addClause occur p).build context
          = .ok (.single "bool" (.object
              (Json.put occur.key (.array (queries occur ++ [query])) members))) := by
  have hbool : addClauses (bool [] minimum boost) additions = bool additions minimum boost := by
    rw [addClauses_bool, List.nil_append]
  rw [hbool] at h
  obtain ⟨queries, hqueries, rfl⟩ := build_bool_eq_ok_iff.mp h
  have hall := fun occur => Steps.mapM_eq_ok_iff.mp (hqueries occur)
  have hempty : ∀ occur, queries occur = [] ↔ added occur additions = [] := fun occur => by
    rw [← List.length_eq_zero_iff, ← (hall occur).length_eq, List.length_eq_zero_iff]
  refine ⟨queries, boolMembers minimum boost queries, rfl, fun occur => ⟨hall occur, ?_⟩, ?_,
    fun others hothers => build_addClauses_congr hothers minimum boost, fun occur p query hp => ?_⟩
  · rw [find?_boolMembers, group]
    simp only [hempty]
  · rw [← length_added_add additions, (hall .must).length_eq, (hall .should).length_eq,
      (hall .mustNot).length_eq, (hall .filter).length_eq]
  · rw [hbool, ← boolMembers_append]
    refine build_bool_eq_ok_iff.mpr ⟨_, fun other => ?_, rfl⟩
    have hadded : added other (additions ++ [(occur, p)])
        = added other additions ++ if occur = other then [p] else [] := by
      unfold added
      by_cases hoccur : occur = other <;> simp [hoccur]
    rw [hadded, List.mapM_append, hqueries other]
    by_cases hoccur : occur = other
    · subst hoccur
      simp [hp, bind, Except.bind, pure, Except.pure]
    · simp [hoccur, Ne.symm hoccur, bind, Except.bind, pure, Except.pure]

/-- Two filters on different levels, with another clause added in between. -/
def mixedAdditions : List (Occur × Predicate) :=
  [(.filter, field lineMatch), (.must, matchAll none), (.filter, matchAll none)]

/-- In the context of the orders both filters stand in one group, the first one in the nested clause
that it needs. Adding the other clause first gives the same query. -/
theorem build_addClauses_by_occurrence_mixedLevels :
    ∃ json members lines all,
      (addClauses (bool [] (some 1) none) mixedAdditions).build (some "orders") = .ok json ∧
      json = .single "bool" (.object members) ∧
      (field lineMatch).build (some "orders") = .ok lines ∧
      (matchAll none).build (some "orders") = .ok all ∧
      Json.find? "filter" members = some (.array [lines, all]) ∧
      Json.find? "should" members = none ∧
      (addClauses (bool [] (some 1) none) [(.must, matchAll none), (.filter, field lineMatch),
        (.filter, matchAll none)]).build (some "orders") = .ok json := by
  have hbuild : (addClauses (bool [] (some 1) none) mixedAdditions).build (some "orders")
      = .ok _ := rfl
  obtain ⟨queries, members, hjson, hgroups, -, hothers, -⟩ := build_addClauses_by_occurrence hbuild
  obtain ⟨hfilters, hfilter⟩ := hgroups .filter
  obtain ⟨lines, rest, hlines, hrest, hqueries⟩ := List.forall₂_cons_left_iff.mp hfilters
  obtain ⟨all, rest, hall, hnone, rfl⟩ := List.forall₂_cons_left_iff.mp hrest
  obtain rfl := List.forall₂_nil_left_iff.mp hnone
  have hregrouped : ∀ occur, added occur [(.must, matchAll none), (.filter, field lineMatch),
      (.filter, matchAll none)] = added occur mixedAdditions := fun occur => by
    cases occur <;> rfl
  refine ⟨_, members, lines, all, hbuild, hjson, hlines, hall, ?_, (hgroups .should).2, ?_⟩
  · rw [← hqueries]
    exact hfilter
  · exact (hothers _ hregrouped (some "orders")).trans hbuild

end SearchDsl.Predicate
