import SearchDsl.Predicate.Nesting
import SearchDsl.Proofs.Path
import SearchDsl.Proofs.Steps

/-!
# `SearchDsl.Proofs.Predicate.Leaves`: the leaf clauses of a query

A query is a tree of `bool` and `nested` clauses over leaf clauses. `Json.leaves` reads that tree
off the JSON of a query: all leaf clauses, each with the paths of the `nested` clauses around it.

The lemmas say what the pieces of rendering do to the leaves. Wrapping puts all of them below more
levels (`leaves_wrapNested`), the body of a field predicate has one leaf per field (`leaves_body`),
and a bool query has the leaves of its clauses, in an order of its own (`boolQuery_leaves`).
-/

set_option autoImplicit false

namespace SearchDsl

/-- A leaf clause, with the paths of the nested clauses around it, outermost first. -/
structure Leaf where
  around : List String
  clause : Json

/-- Whether a member of a bool clause holds clauses. -/
def Occur.isKey (key : String) : Bool :=
  key = "must" || key = "should" || key = "must_not" || key = "filter"

namespace Json

mutual

/-- The leaf clauses of a query that stands in nested clauses already. -/
def leaves (around : List String) : Json → List Leaf
  | object [(key, body)] =>
      if key = "nested" then nestedLeaves around body
      else if key = "bool" then boolLeaves around body
      else [⟨around, single key body⟩]
  | clause => [⟨around, clause⟩]

/-- The leaf clauses of the body of a nested clause. -/
def nestedLeaves (around : List String) : Json → List Leaf
  | object [("path", string path), ("query", query)] => leaves (around ++ [path]) query
  | body => [⟨around, single "nested" body⟩]

/-- The leaf clauses of the body of a bool clause. -/
def boolLeaves (around : List String) : Json → List Leaf
  | object members => memberLeaves around members
  | body => [⟨around, single "bool" body⟩]

/-- The leaf clauses of the members of a bool clause. Members that hold no clauses are options. -/
def memberLeaves (around : List String) : List (String × Json) → List Leaf
  | [] => []
  | (key, array items) :: rest =>
      (if Occur.isKey key then itemLeaves around items else []) ++ memberLeaves around rest
  | (key, clause) :: rest =>
      (if Occur.isKey key then leaves around clause else []) ++ memberLeaves around rest

/-- The leaf clauses of several queries. -/
def itemLeaves (around : List String) : List Json → List Leaf
  | [] => []
  | item :: rest => leaves around item ++ itemLeaves around rest

end

variable (around : List String)

/-- A clause that is neither nested nor bool is a leaf. -/
theorem leaves_single {key : String} (hnested : key ≠ "nested") (hbool : key ≠ "bool")
    (body : Json) : (single key body).leaves around = [⟨around, single key body⟩] := by
  rw [single, leaves, if_neg hnested, if_neg hbool]
  rfl

/-- The leaves of a bool clause are those of its members. -/
theorem leaves_bool (members : List (String × Json)) :
    (single "bool" (object members)).leaves around = memberLeaves around members := by
  rw [single, leaves, if_neg (by decide), if_pos rfl, boolLeaves]

/-- A nested clause puts its leaves below its path. -/
theorem leaves_nestedClause (path : String) (query : Json) :
    (nestedClause path query).leaves around = query.leaves (around ++ [path]) := by
  rw [nestedClause, single, leaves, if_pos rfl, nestedLeaves]

/-- Wrapping puts every leaf below the levels that it adds. -/
theorem leaves_foldr_nestedClause (levels : List String) (query : Json) :
    (levels.foldr nestedClause query).leaves around = query.leaves (around ++ levels) := by
  induction levels generalizing around with
  | nil => rw [List.foldr_nil, List.append_nil]
  | cons level levels ih =>
      rw [List.foldr_cons, leaves_nestedClause, ih, List.append_assoc, List.singleton_append]

/-- The leaves of several queries are those of each of them, in order. -/
theorem itemLeaves_eq_flatMap (items : List Json) :
    itemLeaves around items = items.flatMap (leaves around) := by
  induction items with
  | nil => rfl
  | cons item items ih => rw [itemLeaves, ih, List.flatMap_cons]

/-- Members contribute their leaves one after the other. -/
theorem memberLeaves_append (members more : List (String × Json)) :
    memberLeaves around (members ++ more)
      = memberLeaves around members ++ memberLeaves around more := by
  induction members with
  | nil => rfl
  | cons member members ih =>
      obtain ⟨key, value⟩ := member
      cases value <;> simp [memberLeaves, ih]

/-- An option of a bool clause holds no leaves. -/
theorem memberLeaves_member? {key : String} (h : Occur.isKey key = false) (value : Option Json) :
    memberLeaves around (member? key value) = [] := by
  cases value with
  | none => rfl
  | some value => cases value <;> simp [member?, memberLeaves, h]

end Json

open Json

/-- Wrapping puts every leaf below the levels that the context does not provide. -/
theorem leaves_wrapNested (around hierarchy : List String) (context : Option String)
    (query : Json) : (wrapNested hierarchy context query).leaves around
      = query.leaves (around ++ levelsBelow context hierarchy) :=
  leaves_foldr_nestedClause around (levelsBelow context hierarchy) query

/-- The clause of a test is a leaf. -/
theorem FieldTest.leaves_clause (test : FieldTest) (boost : Option Single) (path : String)
    (around : List String) :
    (test.clause boost path).leaves around = [⟨around, test.clause boost path⟩] := by
  cases test <;> exact leaves_single around (by decide) (by decide) _

/-- The body of a field predicate has one leaf per field. -/
theorem FieldPredicate.leaves_body (p : FieldPredicate) (around : List String) :
    p.body.leaves around = p.paths.map fun path => ⟨around, p.test.clause p.boost path⟩ := by
  have hall : ∀ paths : List String,
      itemLeaves around (paths.map (p.test.clause p.boost))
        = paths.map fun path => ⟨around, p.test.clause p.boost path⟩ := by
    intro paths
    rw [itemLeaves_eq_flatMap, List.flatMap_map, List.map_eq_flatMap]
    exact List.flatMap_congr fun path _ => p.test.leaves_clause p.boost path around
  unfold body
  split
  · rename_i path hpaths
    rw [hpaths]
    exact p.test.leaves_clause p.boost path around
  · -- Several fields are alternatives in one bool clause.
    rw [leaves_bool]
    simp only [memberLeaves]
    rw [hall]
    simp [Occur.isKey]

namespace Predicate

/-! ### Bool queries -/

/-- The member of a group has the leaves of the clauses in it, and none if it is left out. -/
theorem memberLeaves_clauseMember (around : List String) (occur : Occur) (clauses : List Json) :
    memberLeaves around (clauseMember occur clauses) = clauses.flatMap (leaves around) := by
  have hkey : Occur.isKey occur.key = true := by cases occur <;> decide
  unfold clauseMember
  by_cases hempty : clauses = []
  · rw [if_pos hempty, hempty]
    rfl
  · rw [if_neg hempty, memberLeaves, if_pos hkey, itemLeaves_eq_flatMap]
    exact List.append_nil _

/-- The clauses of one occurrence render if all clauses do. -/
theorem clausesOf_map_ok (occur : Occur) (built : List (Occur × Json)) :
    clausesOf occur (built.map fun clause => (clause.1, .ok clause.2))
      = .ok ((built.filter fun clause => clause.1 = occur).map Prod.snd) := by
  unfold clausesOf
  rw [Steps.mapM_eq_ok_iff, List.filter_map, List.forall₂_map_left_iff, List.forall₂_map_right_iff]
  exact List.forall₂_same.mpr fun _ _ => rfl

/-- Every clause has one of the four occurrences. -/
theorem filter_occur_perm {α : Type} (clauses : List (Occur × α)) :
    ((clauses.filter fun clause => clause.1 = .filter)
      ++ ((clauses.filter fun clause => clause.1 = .must)
      ++ ((clauses.filter fun clause => clause.1 = .mustNot)
      ++ (clauses.filter fun clause => clause.1 = .should)))).Perm clauses := by
  induction clauses with
  | nil => exact .nil
  | cons clause clauses ih =>
      obtain ⟨occur, value⟩ := clause
      refine List.Perm.trans ?_ (ih.cons (occur, value))
      -- The clause stands in front of the part of its own occurrence.
      cases occur with
      | filter => simp
      | must => simp
      | mustNot =>
          simp only [List.filter_cons, reduceCtorEq, decide_false, decide_true, if_true,
            Bool.false_eq_true, if_false, List.cons_append]
          rw [← List.append_assoc, ← List.append_assoc _ _ (_ ++ _)]
          exact List.perm_middle
      | should =>
          simp only [List.filter_cons, reduceCtorEq, decide_false, decide_true, if_true,
            Bool.false_eq_true, if_false]
          rw [← List.append_assoc, ← List.append_assoc, ← List.append_assoc _ _ (_ ++ _),
            ← List.append_assoc]
          exact List.perm_middle

/-- If all clauses render, so does the bool query, and its leaves are theirs. -/
theorem boolQuery_leaves (minimum : Option UInt32) (boost : Option Single)
    (built : List (Occur × Json)) (around : List String) :
    ∃ json, boolQuery minimum boost (built.map fun clause => (clause.1, .ok clause.2)) = .ok json ∧
      (json.leaves around).Perm (built.flatMap fun clause => clause.2.leaves around) := by
  unfold boolQuery
  simp only [clausesOf_map_ok]
  refine ⟨_, rfl, ?_⟩
  -- The members are written in the order of their keys, with the options among them.
  rw [leaves_bool]
  simp only [memberLeaves_append, memberLeaves_clauseMember]
  rw [memberLeaves_member? around (by decide), memberLeaves_member? around (by decide)]
  have hperm := (filter_occur_perm built).flatMap_right fun clause => clause.2.leaves around
  simpa [List.flatMap_map, List.flatMap_append] using hperm

end Predicate

end SearchDsl
