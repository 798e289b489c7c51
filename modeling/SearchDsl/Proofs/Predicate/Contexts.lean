import SearchDsl.Predicate.Nesting
import SearchDsl.Proofs.Steps

/-!
# `SearchDsl.Proofs.Predicate.Contexts`: which contexts take a predicate

Two recursions decide whether a predicate fits into a context. The check stops at explicit nested
predicates. Rendering goes on inside them, in a new context, and takes the clauses of a bool
predicate by occurrence.

What both depend on are the parts of a predicate that have nothing but bool clauses around them
(`Predicate.parts`): the check goes through them in order (`Predicate.checkWithin_eq_forM`), and
rendering fails as the check of one of them does (`Predicate.exists_of_build_eq_error`). The latter
needs that everything inside an explicit nested predicate fits there. That was checked when the
predicate was made, so it holds of all predicates that the constructors make
(`Predicate.Constructible`). Any other predicate may fail in another context, but it fails as
misplaced as well (`Predicate.misplaced_of_build`).

`Predicate.build_agrees_with_check` is the conclusion: a predicate renders exactly in the contexts
that pass the check.
-/

set_option autoImplicit false

namespace SearchDsl

/-! ### Parts -/

/-- The root takes everything, and a nested context takes what stands in it. -/
theorem checkContext_eq_ok_iff {hierarchy paths : List String} {context : Option String} :
    checkContext hierarchy paths context = .ok () ↔
      ∀ level, context = some level → level ∈ hierarchy := by
  cases context with
  | none => simp [checkContext]
  | some expected => simp [checkContext]

/-- A part of a predicate: a field predicate, or the clause of an explicit nested predicate. -/
structure Part where
  /-- The paths of the nested objects around the part, outermost first. -/
  hierarchy : List String
  /-- The paths of what the part tests. -/
  paths : List String

namespace Part

/-- Checks that the part can be rendered in a context. -/
def check (context : Option String) (part : Part) : Except Error Unit :=
  checkContext part.hierarchy part.paths context

variable {context : Option String} {part : Part}

/-- A part can be rendered at the root and in each of the nested objects around it. -/
theorem check_eq_ok_iff :
    part.check context = .ok () ↔ ∀ level, context = some level → level ∈ part.hierarchy :=
  checkContext_eq_ok_iff

/-- A part is refused only by a nested context that it does not stand in. -/
theorem check_eq_error_iff {e : Error} :
    part.check context = .error e ↔
      ∃ expected, context = some expected ∧ expected ∉ part.hierarchy ∧
        e = .misplaced expected part.paths := by
  cases context with
  | none => simp [check, checkContext]
  | some expected =>
      unfold check checkContext
      by_cases hmem : expected ∈ part.hierarchy
      · simp [hmem]
      · simp [hmem, eq_comm]

end Part

namespace Predicate

mutual

/-- The parts of a predicate that have nothing but bool clauses around them. -/
def parts : Predicate → List Part
  | matchAll _ | ids _ => []
  | field p => [⟨p.hierarchy, p.paths⟩]
  | nested path parents _ => [⟨parents, [path]⟩]
  | bool clauses _ _ => clauseParts clauses

/-- The parts of the clauses of a bool predicate. -/
def clauseParts : List (Occur × Predicate) → List Part
  | [] => []
  | (_, clause) :: rest => parts clause ++ clauseParts rest

end

/-- The parts of clauses are those of each of them, in order. -/
theorem clauseParts_eq_flatMap (clauses : List (Occur × Predicate)) :
    clauseParts clauses = clauses.flatMap fun clause => clause.2.parts := by
  induction clauses with
  | nil => rfl
  | cons clause clauses ih =>
      obtain ⟨occur, p⟩ := clause
      rw [clauseParts, ih, List.flatMap_cons]

/-! ### The check -/

mutual

/-- The check goes through the parts in order. -/
theorem checkWithin_eq_forM (context : Option String) :
    ∀ p : Predicate, p.checkWithin context = p.parts.forM (Part.check context)
  | matchAll _ => rfl
  | ids _ => rfl
  | field p => (bind_pure (p.checkWithin context)).symm
  | nested path parents _ => (bind_pure (checkContext parents [path] context)).symm
  | bool clauses _ _ => checkClauses_eq_forM context clauses

/-- Checking clauses checks all their parts in order. -/
theorem checkClauses_eq_forM (context : Option String) :
    ∀ clauses : List (Occur × Predicate),
      checkClauses context clauses = (clauseParts clauses).forM (Part.check context)
  | [] => rfl
  | (_, clause) :: rest => by
      have happend : (clause.parts ++ clauseParts rest).forM (Part.check context)
          = (clause.parts.forM (Part.check context) >>= fun _ =>
              (clauseParts rest).forM (Part.check context)) := List.forM_append
      rw [checkClauses, clauseParts, happend, checkWithin_eq_forM context clause,
        checkClauses_eq_forM context rest]

end

/-- The check passes if each part fits. -/
theorem checkWithin_eq_ok_iff {context : Option String} {p : Predicate} :
    p.checkWithin context = .ok () ↔ ∀ part ∈ p.parts, part.check context = .ok () := by
  rw [checkWithin_eq_forM, Steps.forM_eq_ok_iff]

/-- The root takes every predicate. -/
theorem checkWithin_none (p : Predicate) : p.checkWithin none = .ok () :=
  checkWithin_eq_ok_iff.mpr fun _ _ => rfl

/-- A bool predicate fits if each of its clauses does. -/
theorem checkWithin_bool_eq_ok_iff {context : Option String}
    {clauses : List (Occur × Predicate)} {minimum : Option UInt32} {boost : Option Single} :
    (bool clauses minimum boost).checkWithin context = .ok () ↔
      ∀ clause ∈ clauses, clause.2.checkWithin context = .ok () := by
  simp only [checkWithin_eq_ok_iff, parts, clauseParts_eq_flatMap, List.mem_flatMap]
  exact ⟨fun h clause hclause part hpart => h part ⟨clause, hclause, hpart⟩,
    fun h part ⟨clause, hclause, hpart⟩ => h clause hclause part hpart⟩

/-- What a nested predicate is made of: a hierarchy that ends with its path, each level below the
one before it, and an inner predicate that fits into it. -/
theorem createNested_eq_ok_iff {path : String} {hierarchy : List String} {inner p : Predicate} :
    createNested path hierarchy inner = .ok p ↔
      hierarchy.getLast? = some path ∧ Path.checkChain hierarchy = .ok () ∧
        inner.checkWithin (some path) = .ok () ∧ p = nested path hierarchy.dropLast inner := by
  unfold createNested
  rw [Steps.throwIf_eq_ok_iff, Steps.check_eq_ok_iff, Steps.check_eq_ok_iff, Steps.pure_eq_ok_iff,
    not_not]

/-! ### Rendering bool queries -/

/-- Clauses are rendered one by one, each with its occurrence. -/
theorem buildClauses_eq_map (context : Option String) (clauses : List (Occur × Predicate)) :
    buildClauses context clauses
      = clauses.map fun clause => (clause.1, clause.2.build context) := by
  induction clauses with
  | nil => rfl
  | cons clause clauses ih =>
      obtain ⟨occur, p⟩ := clause
      rw [buildClauses, ih, List.map_cons]

section BoolQuery

variable {minimum : Option UInt32} {boost : Option Single}
  {built : List (Occur × Except Error Json)}

/-- Clauses of one occurrence fail as one of them does. -/
theorem exists_of_clausesOf_eq_error {occur : Occur} {e : Error}
    (h : clausesOf occur built = .error e) : ∃ clause ∈ built, clause.2 = .error e := by
  obtain ⟨clause, hclause, hfails⟩ := Steps.exists_of_mapM_eq_error h
  exact ⟨clause, List.mem_of_mem_filter hclause, hfails⟩

/-- A bool query fails as one of its clauses does. -/
theorem exists_of_boolQuery_eq_error {e : Error}
    (h : boolQuery minimum boost built = .error e) : ∃ clause ∈ built, clause.2 = .error e := by
  -- One of the four groups fails. After them nothing does.
  rcases Steps.bind_eq_error_iff.mp h with hmust | ⟨must, -, h⟩
  · exact exists_of_clausesOf_eq_error hmust
  rcases Steps.bind_eq_error_iff.mp h with hshould | ⟨should, -, h⟩
  · exact exists_of_clausesOf_eq_error hshould
  rcases Steps.bind_eq_error_iff.mp h with hmustNot | ⟨mustNot, -, h⟩
  · exact exists_of_clausesOf_eq_error hmustNot
  rcases Steps.bind_eq_error_iff.mp h with hfilter | ⟨filter, -, h⟩
  · exact exists_of_clausesOf_eq_error hfilter
  simp [pure, Except.pure] at h

/-- A bool query renders only if each of its clauses does. -/
theorem exists_of_boolQuery_eq_ok {json : Json} (h : boolQuery minimum boost built = .ok json)
    {clause : Occur × Except Error Json} (hclause : clause ∈ built) :
    ∃ query, clause.2 = .ok query := by
  obtain ⟨must, hmust, h⟩ := Steps.bind_eq_ok_iff.mp h
  obtain ⟨should, hshould, h⟩ := Steps.bind_eq_ok_iff.mp h
  obtain ⟨mustNot, hmustNot, h⟩ := Steps.bind_eq_ok_iff.mp h
  obtain ⟨filter, hfilter, -⟩ := Steps.bind_eq_ok_iff.mp h
  have hgroup : ∀ {queries : List Json}, clausesOf clause.1 built = .ok queries →
      ∃ query, clause.2 = .ok query := by
    intro queries hqueries
    refine Steps.exists_of_mapM_eq_ok hqueries (List.mem_filter.mpr ⟨hclause, ?_⟩)
    exact decide_eq_true rfl
  -- The clause is in the group of its occurrence.
  cases hoccur : clause.1 with
  | must => exact hgroup (hoccur ▸ hmust)
  | should => exact hgroup (hoccur ▸ hshould)
  | mustNot => exact hgroup (hoccur ▸ hmustNot)
  | filter => exact hgroup (hoccur ▸ hfilter)

end BoolQuery

/-! ### Rendering predicates -/

mutual

/-- What renders in a context passes the check there. -/
theorem checkWithin_of_build {context : Option String} : ∀ (p : Predicate) {json : Json},
    p.build context = .ok json → p.checkWithin context = .ok ()
  | matchAll _, _, _ => rfl
  | ids _, _, _ => rfl
  | field _, _, h => (Steps.check_eq_ok_iff.mp h).1
  | nested _ _ _, _, h => (Steps.check_eq_ok_iff.mp h).1
  | bool clauses _ _, _, h => checkClauses_of_build clauses fun _ hclause =>
      exists_of_boolQuery_eq_ok h (buildClauses_eq_map context clauses ▸
        List.mem_map_of_mem hclause)

/-- Clauses that render pass the check. -/
theorem checkClauses_of_build {context : Option String} : ∀ clauses : List (Occur × Predicate),
    (∀ clause ∈ clauses, ∃ json, clause.2.build context = .ok json) →
      checkClauses context clauses = .ok ()
  | [], _ => rfl
  | (_, clause) :: rest, h => by
      obtain ⟨⟨json, hjson⟩, hrest⟩ := List.forall_mem_cons.mp h
      exact Steps.check_eq_ok_iff.mpr
        ⟨checkWithin_of_build clause hjson, checkClauses_of_build rest hrest⟩

end

mutual

/-- However a predicate came about, it fails to render only for a part that does not stand in its
context. -/
theorem misplaced_of_build {e : Error} : ∀ (p : Predicate) {context : Option String},
    p.build context = .error e → ∃ expected paths, e = .misplaced expected paths
  | matchAll _, _, h => by simp [build] at h
  | ids _, _, h => by simp [build] at h
  | field p, context, h => by
      rcases Steps.bind_eq_error_iff.mp h with hcheck | ⟨-, -, hwrap⟩
      · have hpart : Part.check context ⟨p.hierarchy, p.paths⟩ = .error e := hcheck
        obtain ⟨expected, -, -, rfl⟩ := Part.check_eq_error_iff.mp hpart
        exact ⟨expected, p.paths, rfl⟩
      · simp [pure, Except.pure] at hwrap
  | nested path parents inner, context, h => by
      rcases Steps.bind_eq_error_iff.mp h with hcheck | ⟨-, -, h⟩
      · have hpart : Part.check context ⟨parents, [path]⟩ = .error e := hcheck
        obtain ⟨expected, -, -, rfl⟩ := Part.check_eq_error_iff.mp hpart
        exact ⟨expected, [path], rfl⟩
      · rcases Steps.bind_eq_error_iff.mp h with hinner | ⟨query, -, hwrap⟩
        · exact misplaced_of_build inner hinner
        · simp [pure, Except.pure] at hwrap
  | bool clauses _ _, context, h => by
      obtain ⟨clause, hclause, hfails⟩ := exists_of_boolQuery_eq_error h
      exact misplaced_of_buildClauses clauses hclause hfails

/-- What fails among clauses fails since something is misplaced. -/
theorem misplaced_of_buildClauses {e : Error} : ∀ (clauses : List (Occur × Predicate))
    {context : Option String} {built : Occur × Except Error Json},
    built ∈ buildClauses context clauses → built.2 = .error e →
      ∃ expected paths, e = .misplaced expected paths
  | [], _, _, hbuilt, _ => absurd hbuilt List.not_mem_nil
  | (_, clause) :: rest, _, _, hbuilt, hfails => by
      rcases List.mem_cons.mp hbuilt with rfl | hrest
      · exact misplaced_of_build clause hfails
      · exact misplaced_of_buildClauses rest hrest hfails

end

end Predicate

/-! ### What the constructors make -/

/-- What a field predicate is made of: some paths, only one unless the test is a match, and a
hierarchy with each level below the one before it. -/
theorem FieldPredicate.create_eq_ok_iff {paths hierarchy : List String} {test : FieldTest}
    {p : FieldPredicate} : create paths hierarchy test = .ok p ↔
      paths ≠ [] ∧ ¬(1 < paths.length ∧ test.isMatching = false) ∧
        Path.checkChain hierarchy = .ok () ∧ p = { paths, hierarchy, test } := by
  unfold create
  rw [Steps.throwIf_eq_ok_iff, Steps.throwIf_eq_ok_iff, Steps.check_eq_ok_iff,
    Steps.pure_eq_ok_iff]

/-- The field predicates that are created from any paths and hierarchies that the check accepts, and
their variants with another boost or slop. -/
inductive FieldPredicate.Constructible : FieldPredicate → Prop
  | create {paths hierarchy : List String} {test : FieldTest} {p : FieldPredicate}
      (h : FieldPredicate.create paths hierarchy test = .ok p) : Constructible p
  | withBoost {p : FieldPredicate} (boost : Option Single) (h : Constructible p) :
      Constructible (p.withBoost boost)
  | withSlop {p : FieldPredicate} (slop : UInt32) (h : Constructible p) :
      Constructible (p.withSlop slop)

namespace Predicate

/-- The predicates that the constructors make, from any hierarchies that they accept. -/
inductive Constructible : Predicate → Prop
  | matchAll (boost : Option Single) : Constructible (matchAll boost)
  | ids {ids : List String} {p : Predicate} (h : ofIds ids = .ok p) : Constructible p
  | field {p : FieldPredicate} (h : p.Constructible) : Constructible (field p)
  | bool {clauses : List (Occur × Predicate)} (minimum : Option UInt32) (boost : Option Single)
      (h : ∀ clause ∈ clauses, Constructible clause.2) :
      Constructible (bool clauses minimum boost)
  | nested {path : String} {hierarchy : List String} {inner p : Predicate}
      (hinner : Constructible inner) (h : createNested path hierarchy inner = .ok p) :
      Constructible p

/-- A predicate that the constructors make fails to render as the check of one of its parts does. -/
theorem exists_of_build_eq_error {p : Predicate} (h : Constructible p) :
    ∀ {context : Option String} {e : Error}, p.build context = .error e →
      ∃ part ∈ p.parts, part.check context = .error e := by
  -- Induction on how the predicate is made. A nested predicate changes the context, so the context
  -- is left open.
  induction h with
  | matchAll boost =>
      intro context e hbuild
      simp [build] at hbuild
  | ids h =>
      intro context e hbuild
      unfold ofIds at h
      split at h
      · simp at h
      · obtain rfl := Except.ok.inj h
        simp [build] at hbuild
  | @field p h =>
      intro context e hbuild
      -- After the check a field predicate only has to be wrapped.
      rcases Steps.bind_eq_error_iff.mp hbuild with hcheck | ⟨-, -, hwrap⟩
      · exact ⟨⟨p.hierarchy, p.paths⟩, List.mem_singleton.mpr rfl, hcheck⟩
      · simp [pure, Except.pure] at hwrap
  | @bool clauses minimum boost h ih =>
      intro context e hbuild
      obtain ⟨built, hbuilt, hfails⟩ := exists_of_boolQuery_eq_error hbuild
      rw [buildClauses_eq_map] at hbuilt
      obtain ⟨clause, hclause, rfl⟩ := List.mem_map.mp hbuilt
      obtain ⟨part, hpart, hcheck⟩ := ih clause hclause hfails
      refine ⟨part, ?_, hcheck⟩
      rw [parts, clauseParts_eq_flatMap, List.mem_flatMap]
      exact ⟨clause, hclause, hpart⟩
  | @nested path hierarchy inner p hinner h ih =>
      intro context e hbuild
      obtain ⟨-, -, hfits, rfl⟩ := createNested_eq_ok_iff.mp h
      rcases Steps.bind_eq_error_iff.mp hbuild with hcheck | ⟨-, -, hrest⟩
      · exact ⟨⟨hierarchy.dropLast, [path]⟩, List.mem_singleton.mpr rfl, hcheck⟩
      · -- What is inside was checked for this very context when the clause was made.
        rcases Steps.bind_eq_error_iff.mp hrest with hquery | ⟨query, -, hwrap⟩
        · obtain ⟨part, hpart, hcheck⟩ := ih hquery
          rw [checkWithin_eq_ok_iff.mp hfits part hpart] at hcheck
          simp at hcheck
        · simp [pure, Except.pure] at hwrap

/-- A predicate that the constructors make renders where it passes the check. -/
theorem exists_build_of_checkWithin {p : Predicate} (h : Constructible p)
    {context : Option String} (hcheck : p.checkWithin context = .ok ()) :
    ∃ json, p.build context = .ok json := by
  cases hbuild : p.build context with
  | ok json => exact ⟨json, rfl⟩
  | error e =>
      obtain ⟨part, hpart, hfails⟩ := exists_of_build_eq_error h hbuild
      rw [checkWithin_eq_ok_iff.mp hcheck part hpart] at hfails
      simp at hfails

/-- Rendering and the check agree on the predicates that the constructors make. A predicate renders
exactly in the contexts where the check passes. Elsewhere both fail because some part does not stand
in the nested object of the context, and they name that object and the paths of such a part, though
not always of the same one. At the root neither fails. -/
theorem build_agrees_with_check {p : Predicate} (h : Constructible p) (context : Option String) :
    ((∃ json, p.build context = .ok json) ↔ p.checkWithin context = .ok ()) ∧
    (∀ e, p.build context = .error e ∨ p.checkWithin context = .error e →
      ∃ expected, context = some expected ∧ ∃ part ∈ p.parts, expected ∉ part.hierarchy ∧
        e = .misplaced expected part.paths) ∧
    (∃ json, p.build none = .ok json) ∧ p.checkWithin none = .ok () := by
  have hroot := checkWithin_none p
  refine ⟨⟨fun ⟨json, hjson⟩ => checkWithin_of_build p hjson, exists_build_of_checkWithin h⟩,
    fun e hfails => ?_, exists_build_of_checkWithin h hroot, hroot⟩
  have hpart : ∃ part ∈ p.parts, part.check context = .error e := by
    rcases hfails with hbuild | hcheck
    · exact exists_of_build_eq_error h hbuild
    · rw [checkWithin_eq_forM] at hcheck
      exact Steps.exists_of_forM_eq_error hcheck
  obtain ⟨part, hpart, hcheck⟩ := hpart
  obtain ⟨expected, hcontext, houtside, he⟩ := Part.check_eq_error_iff.mp hcheck
  exact ⟨expected, hcontext, part, hpart, houtside, he⟩

/-- A match of two fields in the lines of orders. -/
def lineMatch : FieldPredicate :=
  { paths := ["orders.lines.sku", "orders.lines.code"], hierarchy := ["orders", "orders.lines"],
    test := .matching (.string "A-1") none }

/-- The same match as such and in an explicit nested predicate. -/
def besideNested : Predicate :=
  bool [(.should, field lineMatch), (.should, nested "orders.lines" ["orders"] (field lineMatch))]
    (some 1) none

/-- Inside the orders both clauses render. Inside their lines the explicit one is refused, and the
error names what it tests. -/
theorem build_agrees_with_check_besideNested :
    Constructible besideNested ∧ (∃ json, besideNested.build (some "orders") = .ok json) ∧
      ∃ e, besideNested.build (some "orders.lines") = .error e ∧
        ∃ part ∈ besideNested.parts, "orders.lines" ∉ part.hierarchy ∧
          e = .misplaced "orders.lines" part.paths := by
  have hmatch : Constructible (field lineMatch) :=
    .field (.create (show FieldPredicate.create lineMatch.paths lineMatch.hierarchy lineMatch.test
      = .ok lineMatch from rfl))
  have hnested : Constructible (nested "orders.lines" ["orders"] (field lineMatch)) :=
    .nested hmatch (show createNested "orders.lines" ["orders", "orders.lines"] _ = .ok _ from rfl)
  have hboth : Constructible besideNested := .bool _ _ (by simpa using ⟨hmatch, hnested⟩)
  refine ⟨hboth, (build_agrees_with_check hboth (some "orders")).1.mpr rfl, ?_⟩
  -- The explicit nested predicate does not stand inside its own object.
  have hrefused : besideNested.checkWithin (some "orders.lines")
      = .error (.misplaced "orders.lines" ["orders.lines"]) := rfl
  obtain ⟨hiff, hfails, -⟩ := build_agrees_with_check hboth (some "orders.lines")
  cases hbuild : besideNested.build (some "orders.lines") with
  | ok json =>
      have hcheck := hiff.mp ⟨json, hbuild⟩
      simp [hrefused] at hcheck
  | error e =>
      obtain ⟨expected, hexpected, part, hpart, houtside, he⟩ := hfails e (.inl hbuild)
      obtain rfl := Option.some.inj hexpected
      exact ⟨e, rfl, part, hpart, houtside, he⟩

end Predicate

end SearchDsl
