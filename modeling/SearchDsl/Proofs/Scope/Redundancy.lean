import SearchDsl.Proofs.Scope.Nested

/-!
# `SearchDsl.Proofs.Scope.Redundancy`: explicit nested predicates around one test

Around a single test an explicit nested predicate says nothing that rendering would not add by
itself: `Scope.build_nested_eq_ok_iff` gives the same query for the test alone, or for the part of
a tower of nested predicates that is inside the outermost one.

The explicit predicate writes the clause of its object and wraps it in the levels around the
object. Without it the levels of the test are wrapped around the test, the object being one of
them. Both come to the same because the hierarchy of the object, as the scope resolves it, is the
part up to the object of the hierarchy of the test (`Scope.Assembled.exists_split`).

It takes a test: around a bool predicate the explicit clause is outside of the bool clause, and the
levels that rendering adds are inside.
-/

set_option autoImplicit false

namespace SearchDsl

/-! ### Initial parts of a chain -/

/-- Of two initial parts of a chain, one that ends with a level of the other is the shorter one. -/
theorem Path.prefix_of_getLast?_mem {whole first second : List String} {level : String}
    (hchain : whole.Pairwise fun outer inner => isBelow inner outer = true)
    (hfirst : first <+: whole) (hsecond : second <+: whole)
    (hlast : first.getLast? = some level) (hlevel : level ∈ second) : first <+: second := by
  rcases List.prefix_or_prefix_of_prefix hfirst hsecond with hshorter | ⟨rest, rfl⟩
  · exact hshorter
  · -- The last level cannot come again after it has occurred.
    have honce := not_mem_of_chain (hchain.sublist hfirst.sublist) hlevel
    cases rest with
    | nil => simp
    | cons next rest =>
        rw [List.getLast?_append_of_ne_nil _ (List.cons_ne_nil _ _)] at hlast
        exact absurd (List.mem_of_getLast? hlast) honce

namespace Scope

variable {scope : Scope} {p q : Predicate} {part : Nestable} {path : String}

/-! ### Hierarchies of predicates and of objects -/

/-- The hierarchy of a predicate of the scope starts the hierarchy of a field that an index
declares: a field that it tests, or its object. -/
theorem Assembled.exists_declared (h : Assembled scope p) (hpart : p.nestable? = some part) :
    ∃ index ∈ scope.indexes, ∃ target declared, index.field? target = some declared ∧
      part.hierarchy <+: declared.hierarchy := by
  cases h with
  | @field p h =>
      obtain rfl := Option.some.inj hpart
      obtain ⟨hne, hfields⟩ := h.resolves
      obtain ⟨target, htarget⟩ := List.exists_mem_of_ne_nil _ hne
      obtain ⟨field, hfield, hhierarchy⟩ := hfields target htarget
      obtain ⟨index, hindex, declared, hdeclared, -, heq⟩ := exists_of_valueField hfield
      have hsame : p.hierarchy = declared.hierarchy := by rw [← hhierarchy, heq]
      exact ⟨index, hindex, target, declared, hdeclared, hsame ▸ List.prefix_refl _⟩
  | nested hinner h =>
      obtain ⟨object, hobject, -, hcreate⟩ := nested_eq_ok_iff.mp h
      obtain ⟨-, -, -, rfl⟩ := Predicate.createNested_eq_ok_iff.mp hcreate
      obtain rfl := Option.some.inj hpart
      obtain ⟨index, hindex, declared, hdeclared, -, heq⟩ := exists_of_objectField hobject
      have hsame : declared.hierarchy = object.hierarchy := by rw [heq]
      exact ⟨index, hindex, _, declared, hdeclared, hsame ▸ List.dropLast_prefix _⟩
  | ids h =>
      unfold Predicate.ofIds at h
      split at h
      · simp at h
      · obtain rfl := Except.ok.inj h
        simp [Predicate.nestable?] at hpart
  | matchAll | bool => simp [Predicate.nestable?] at hpart

/-- A level of a predicate that is resolved by itself as an object splits the hierarchy of the
predicate, which is a chain, into that of the object and the levels inside it. -/
theorem Assembled.exists_split (h : Assembled scope p) (hpart : p.nestable? = some part)
    {object : ObjectField} (hobject : scope.objectField path = .ok object)
    (hlevel : path ∈ part.hierarchy) :
    ∃ inner, part.hierarchy = object.hierarchy.dropLast ++ path :: inner ∧
      part.hierarchy.Pairwise fun outer inner => Path.isBelow inner outer = true := by
  obtain ⟨index, hindex, target, declared, hdeclared, hpartial⟩ := h.exists_declared hpart
  have hchain := (Index.field?_hierarchy hdeclared).chain
  obtain ⟨hinitial, hlast⟩ :=
    hierarchy_of_level hindex hdeclared (hpartial.subset hlevel) hobject
  obtain ⟨inner, hinner⟩ := Path.prefix_of_getLast?_mem hchain hinitial hpartial hlast hlevel
  refine ⟨inner, ?_, hchain.sublist hpartial.sublist⟩
  obtain ⟨outer, houter⟩ := List.getLast?_eq_some_iff.mp hlast
  rw [← hinner, houter, List.dropLast_concat, List.append_assoc, List.singleton_append]

/-! ### Rendering -/

/-- An explicit nested predicate around a predicate with a hierarchy of its own, that is around a
test of fields or around another nested predicate, is redundant. Wherever it can stand it renders
exactly to what the inner predicate renders to there. -/
theorem build_nested_eq_ok_iff (h : Assembled scope p) (hpart : p.nestable? = some part)
    (hnested : scope.nested path p = .ok q) {context : Option String} {json : Json} :
    q.build context = .ok json ↔ q.checkWithin context = .ok () ∧ p.build context = .ok json := by
  obtain ⟨object, hobject, -, hcreate⟩ := nested_eq_ok_iff.mp hnested
  obtain rfl := path_of_objectField hobject
  obtain ⟨-, -, hinner, rfl⟩ := Predicate.createNested_eq_ok_iff.mp hcreate
  rw [Predicate.checkWithin_of_nestable? hpart] at hinner
  obtain ⟨inner, hsplit, hchain⟩ := h.exists_split hpart hobject
    (Part.check_eq_ok_iff.mp hinner _ rfl)
  rw [Predicate.build_eq_ok_iff_of_nestable? rfl, Predicate.build_eq_ok_iff_of_nestable? hpart,
    Predicate.checkWithin_of_nestable? rfl]
  refine and_congr_right fun hcheck => ?_
  have hcontext := Part.check_eq_ok_iff.mp hcheck
  have hfits : part.check context = .ok () :=
    Part.check_eq_ok_iff.mpr fun other hother =>
      hsplit ▸ List.mem_append_left _ (hcontext other hother)
  -- The clause of the object and the levels around it complete what is inside the object.
  have hparts : ∀ body, wrapNested part.hierarchy context body
      = wrapNested object.hierarchy.dropLast context
          (nestedClause object.path (wrapNested part.hierarchy (some object.path) body)) := by
    rw [hsplit] at hchain ⊢
    exact wrapNested_parts hchain hcontext
  simp only [Steps.map_eq_ok_iff, Predicate.build_eq_ok_iff_of_nestable? hpart, hinner, hfits,
    true_and, hparts]
  constructor
  · rintro ⟨-, ⟨-, ⟨body, hbody, rfl⟩, rfl⟩, rfl⟩
    exact ⟨body, hbody, rfl⟩
  · rintro ⟨body, hbody, rfl⟩
    exact ⟨_, ⟨_, ⟨body, hbody, rfl⟩, rfl⟩, rfl⟩

/-- The orders of a shop with their lines and the parts of each line, all of them nested. -/
def shopOrders : Scope :=
  let parts : Definition := .object "parts" .nested true [.value "code" { kind := .keyword } false]
  let lines : Definition := .object "lines" .nested true [parts]
  single ⟨"shop", [.object "orders" .nested true [lines]], by decide, rfl⟩

/-- In an order, a second explicit level around a test in its own explicit level. -/
theorem build_nested_eq_ok_iff_explicitPart :
    Assembled shopOrders Predicate.explicitPart ∧
      (∃ part, Predicate.explicitPart.nestable? = some part) ∧
      ∃ q json, shopOrders.nested "orders.lines" Predicate.explicitPart = .ok q ∧
        q.build (some "orders") = .ok json ∧
        Predicate.explicitPart.build (some "orders") = .ok json := by
  have htest : Assembled shopOrders (.field Predicate.partTest) := .field (.existsField
    (show shopOrders.existsField "orders.lines.parts.code" = .ok Predicate.partTest from rfl))
  have htower : Assembled shopOrders Predicate.explicitPart :=
    .nested htest (show shopOrders.nested "orders.lines.parts" _ = .ok _ from rfl)
  have hnested : shopOrders.nested "orders.lines" Predicate.explicitPart
    = .ok (.nested "orders.lines" ["orders"] Predicate.explicitPart) := rfl
  obtain ⟨json, hbuild⟩ : ∃ json, Predicate.build (some "orders")
    (.nested "orders.lines" ["orders"] Predicate.explicitPart) = .ok json := ⟨_, rfl⟩
  exact ⟨htower, ⟨_, rfl⟩, _, json, hnested, hbuild,
    ((build_nested_eq_ok_iff htower rfl hnested).mp hbuild).2⟩

end Scope

end SearchDsl
