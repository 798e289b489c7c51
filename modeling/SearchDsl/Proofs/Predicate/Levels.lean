import Mathlib.Data.List.DropRight
import SearchDsl.Proofs.Path
import SearchDsl.Proofs.Predicate.Contexts

/-!
# `SearchDsl.Proofs.Predicate.Levels`: the levels that rendering adds

Rendering goes from the innermost level of a hierarchy outwards and stops at the first one that is
the context. No level occurs twice in a hierarchy that passed its check, so the levels that are left
are exactly those after the context (`levelsBelow_level`).

Field predicates and explicit nested predicates have a hierarchy of their own. Rendering treats them
alike (`Nestable`): what they are inside their innermost level is wrapped in the levels that are
missing. `Predicate.build_at_level` says what that comes to in the context of one of the levels, and
how the same predicate at the root is put together from it.
-/

set_option autoImplicit false

namespace SearchDsl

/-! ### Missing levels -/

/-- At the root all levels are missing. -/
theorem levelsBelow_none (hierarchy : List String) : levelsBelow none hierarchy = hierarchy :=
  List.rtakeWhile_eq_self_iff.mpr fun _ _ => by simp

/-- Levels that are not the context are missing if they are the last ones. -/
theorem levelsBelow_append {context : Option String} {after : List String}
    (h : ∀ level ∈ after, context ≠ some level) (before : List String) :
    levelsBelow context (before ++ after) = levelsBelow context before ++ after := by
  have hpass : ∀ path ∈ after.reverse, decide (some path ≠ context) = true := fun path hpath =>
    decide_eq_true (Ne.symm (h path (List.mem_reverse.mp hpath)))
  unfold levelsBelow
  rw [List.reverse_append, List.takeWhile_append_of_pos hpass, List.reverse_append,
    List.reverse_reverse]

/-- Below a level of a chain those after it are missing. -/
theorem levelsBelow_level {outer inner : List String} {level : String}
    (hchain : (outer ++ level :: inner).Pairwise fun a b => Path.isBelow b a = true) :
    levelsBelow (some level) (outer ++ level :: inner) = inner := by
  rw [← List.singleton_append, ← List.append_assoc] at hchain ⊢
  -- The level does not come again after it has occurred.
  have hmissing : ∀ other ∈ inner, some level ≠ some other := by
    rintro other hother ⟨⟩
    exact Path.not_mem_of_chain hchain (List.mem_append_right _ List.mem_cons_self) hother
  have hnone : levelsBelow (some level) (outer ++ [level]) = [] :=
    List.rtakeWhile_concat_neg _ _ level (by simp)
  rw [levelsBelow_append hmissing, hnone, List.nil_append]

/-- Without a context all levels are wrapped around the query. -/
theorem wrapNested_none (hierarchy : List String) (query : Json) :
    wrapNested hierarchy none query = hierarchy.foldr nestedClause query := by
  rw [wrapNested, levelsBelow_none]

/-- Wrapping can be done in parts: first in the levels inside of one level, then in the clause of
that level, then in those outside of it, where the context is. -/
theorem wrapNested_parts {outer inner : List String} {level : String}
    (hchain : (outer ++ level :: inner).Pairwise fun a b => Path.isBelow b a = true)
    {context : Option String} (hcontext : ∀ other, context = some other → other ∈ outer)
    (query : Json) :
    wrapNested (outer ++ level :: inner) context query
      = wrapNested outer context
          (nestedClause level (wrapNested (outer ++ level :: inner) (some level) query)) := by
  have hmissing : ∀ other ∈ level :: inner, context ≠ some other := fun other hother heq =>
    Path.not_mem_of_chain hchain (hcontext other heq) hother
  rw [wrapNested, wrapNested, wrapNested, levelsBelow_level hchain, levelsBelow_append hmissing,
    List.foldr_append, List.foldr_cons]

/-! ### Nested clauses around a query -/

mutual

/-- The paths of the nested clauses that a query consists of from the outside on, each directly
inside the one before it. -/
def Json.nestedPaths : Json → List String
  | .object [(key, body)] => if key = "nested" then clausePaths body else []
  | _ => []

/-- The paths of a nested clause and of those directly inside it, from the body of the clause. -/
def Json.clausePaths : Json → List String
  | .object [("path", .string path), ("query", query)] => path :: nestedPaths query
  | _ => []

end

/-- A nested clause puts its path in front. -/
theorem nestedPaths_nestedClause (path : String) (query : Json) :
    (nestedClause path query).nestedPaths = path :: query.nestedPaths := by
  rw [nestedClause, Json.single, Json.nestedPaths, if_pos rfl, Json.clausePaths]

/-- Wrapping puts the levels that it adds in front. -/
theorem nestedPaths_foldr_nestedClause (levels : List String) (query : Json) :
    (levels.foldr nestedClause query).nestedPaths = levels ++ query.nestedPaths := by
  induction levels with
  | nil => rfl
  | cons level levels ih => rw [List.foldr_cons, nestedPaths_nestedClause, ih, List.cons_append]

/-! ### Predicates with a hierarchy of their own -/

/-- What rendering needs of a predicate with a hierarchy of its own: the hierarchy, the paths to
name when the predicate is misplaced, and the query inside the innermost level. -/
structure Nestable extends Part where
  body : Except Error Json

/-- The hierarchy of a field predicate that the constructors make has passed its check. -/
theorem FieldPredicate.Constructible.checkChain {p : FieldPredicate} (h : p.Constructible) :
    Path.checkChain p.hierarchy = .ok () := by
  induction h with
  | create h =>
      obtain ⟨-, -, hchain, rfl⟩ := create_eq_ok_iff.mp h
      exact hchain
  | withBoost boost _ ih => cases boost <;> exact ih
  | withSlop slop _ ih =>
      unfold FieldPredicate.withSlop
      split <;> exact ih

namespace Predicate

/-- Field predicates and explicit nested predicates have a hierarchy of their own. That of a nested
predicate are the nested objects around its object, and its own clause is part of the query inside
them. -/
def nestable? : Predicate → Option Nestable
  | field p => some ⟨⟨p.hierarchy, p.paths⟩, .ok p.body⟩
  | nested path parents inner =>
      some ⟨⟨parents, [path]⟩, nestedClause path <$> inner.build (some path)⟩
  | matchAll _ | ids _ | bool .. => none

variable {p : Predicate} {part : Nestable}

/-- The check looks for the context in the hierarchy. -/
theorem checkWithin_of_nestable? (h : p.nestable? = some part) (context : Option String) :
    p.checkWithin context = part.check context := by
  cases p with
  | field | nested =>
      obtain rfl := Option.some.inj h
      rfl
  | matchAll | ids | bool => simp [nestable?] at h

/-- Rendering checks the context and wraps the query in the levels that are missing. -/
theorem build_of_nestable? (h : p.nestable? = some part) (context : Option String) :
    p.build context = (do
      part.check context
      let body ← part.body
      pure (wrapNested part.hierarchy context body)) := by
  cases p with
  | field p =>
      obtain rfl := Option.some.inj h
      rfl
  | nested path parents inner =>
      obtain rfl := Option.some.inj h
      simp only [build, Part.check, bind_map_left]
  | matchAll | ids | bool => simp [nestable?] at h

/-- In a context that takes it, a predicate renders if it has a query inside its innermost level. -/
theorem build_eq_ok_iff_of_nestable? (h : p.nestable? = some part) {context : Option String}
    {json : Json} : p.build context = .ok json ↔ part.check context = .ok () ∧
      ∃ body, part.body = .ok body ∧ json = wrapNested part.hierarchy context body := by
  rw [build_of_nestable? h, Steps.check_eq_ok_iff, Steps.bind_eq_ok_iff]
  simp only [Steps.pure_eq_ok_iff]

/-- What the constructors make has a query inside its innermost level. -/
theorem Constructible.exists_body (hp : Constructible p) (h : p.nestable? = some part) :
    ∃ body, part.body = .ok body := by
  obtain ⟨json, hjson⟩ := exists_build_of_checkWithin hp (checkWithin_none p)
  obtain ⟨-, body, hbody, -⟩ := (build_eq_ok_iff_of_nestable? h).mp hjson
  exact ⟨body, hbody⟩

/-- The levels of what the constructors make lie each below the ones before it. -/
theorem Constructible.chain (hp : Constructible p) (h : p.nestable? = some part) :
    part.hierarchy.Pairwise fun outer inner => Path.isBelow inner outer = true := by
  cases hp with
  | field hp =>
      obtain rfl := Option.some.inj h
      exact Path.checkChain_eq_ok_iff.mp hp.checkChain
  | nested hinner hcreate =>
      obtain ⟨-, hchain, -, rfl⟩ := createNested_eq_ok_iff.mp hcreate
      obtain rfl := Option.some.inj h
      -- The hierarchy was checked together with the object, which is its last level.
      exact (Path.checkChain_eq_ok_iff.mp hchain).sublist (List.dropLast_sublist _)
  | ids hids =>
      unfold ofIds at hids
      split at hids
      · simp at hids
      · obtain rfl := Except.ok.inj hids
        simp [nestable?] at h
  | matchAll | bool => simp [nestable?] at h

/-- A predicate with a hierarchy of its own in the context of one of its levels. It renders to the
query inside its innermost level, in one nested clause for each level after the context, outermost
first, and in no others. At the root the same comes in the levels up to the context in addition. -/
theorem build_at_level (hp : Constructible p) (hpart : p.nestable? = some part)
    {outer inner : List String} {level : String}
    (hlevel : part.hierarchy = outer ++ level :: inner) :
    ∃ body json, part.body = .ok body ∧ p.build (some level) = .ok json ∧
      json = inner.foldr nestedClause body ∧ json.nestedPaths = inner ++ body.nestedPaths ∧
      p.build none = .ok (wrapNested (outer ++ [level]) none json) := by
  obtain ⟨body, hbody⟩ := hp.exists_body hpart
  have hcheck : part.check (some level) = .ok () := by
    rw [Part.check_eq_ok_iff, hlevel]
    rintro other ⟨⟩
    exact List.mem_append_right _ List.mem_cons_self
  refine ⟨body, inner.foldr nestedClause body, hbody, ?_, rfl,
    nestedPaths_foldr_nestedClause inner body, ?_⟩
  · refine (build_eq_ok_iff_of_nestable? hpart).mpr ⟨hcheck, body, hbody, ?_⟩
    have hchain := hp.chain hpart
    rw [hlevel] at hchain ⊢
    rw [wrapNested, levelsBelow_level hchain]
  · refine (build_eq_ok_iff_of_nestable? hpart).mpr ⟨rfl, body, hbody, ?_⟩
    rw [wrapNested_none, wrapNested_none, ← List.foldr_append, hlevel, List.append_assoc,
      List.singleton_append]

/-- A test of a field three levels down. -/
def partTest : FieldPredicate :=
  { paths := ["orders.lines.parts.code"],
    hierarchy := ["orders", "orders.lines", "orders.lines.parts"], test := .exists }

/-- The same test in an explicit nested predicate for the third level. -/
def explicitPart : Predicate :=
  nested "orders.lines.parts" ["orders", "orders.lines"] (field partTest)

/-- In an order, the level of the lines is added around the explicit clause. -/
theorem build_at_level_explicitPart :
    Constructible explicitPart ∧ ∃ part, explicitPart.nestable? = some part ∧
      part.hierarchy = [] ++ "orders" :: ["orders.lines"] ∧
      ∃ body json, part.body = .ok body ∧ explicitPart.build (some "orders") = .ok json ∧
        json.nestedPaths = ["orders.lines"] ++ body.nestedPaths ∧
        explicitPart.build none = .ok (wrapNested ["orders"] none json) := by
  have htest : Constructible (field partTest) :=
    .field (.create (show FieldPredicate.create partTest.paths partTest.hierarchy partTest.test
      = .ok partTest from rfl))
  have hexplicit : Constructible explicitPart := .nested htest
    (show createNested "orders.lines.parts" partTest.hierarchy (field partTest) = .ok _ from rfl)
  have hlevel : ["orders", "orders.lines"] = [] ++ "orders" :: ["orders.lines"] := rfl
  obtain ⟨body, json, hbody, hjson, -, hpaths, hroot⟩ := build_at_level hexplicit rfl hlevel
  exact ⟨hexplicit, _, rfl, rfl, body, json, hbody, hjson, hpaths, hroot⟩

end Predicate

end SearchDsl
