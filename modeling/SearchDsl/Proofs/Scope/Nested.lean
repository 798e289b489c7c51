import SearchDsl.Proofs.Schema.Ancestors
import SearchDsl.Proofs.Scope.Leaves

/-!
# `SearchDsl.Proofs.Scope.Nested`: what can stand in an explicit nested predicate

Making an explicit nested predicate looks the path of its object up in the hierarchies that the
parts of the inner predicate carry. `Scope.nested_succeeds_iff` says what that comes to for the
predicates of a scope: the path has to resolve to a nested object, and everything that the parts
test has to lie below it as a dotted path.

Hierarchies and paths belong to single indexes, but the object is resolved for the whole scope. What
brings them together is that every index that declares the path at all declares it as that nested
object (`Scope.mem_hierarchy_iff_isBelow`), and that an index that declares something below a path
declares the path, see `SearchDsl.Proofs.Schema.Ancestors`.
-/

set_option autoImplicit false

open SearchDsl.Path (isBelow)

namespace SearchDsl

namespace Scope

variable {scope : Scope} {path : String}

/-- A nested object is around a field that some index declares, and is not the field itself, exactly
if the field lies below its path. -/
theorem mem_hierarchy_iff_isBelow {object : ObjectField}
    (hobject : scope.objectField path = .ok object) (hlayout : object.layout = .nested)
    {index : Index} (hindex : index ∈ scope.indexes) {target : String} {declared : Descriptor}
    (hdeclared : index.field? target = some declared) :
    (path ∈ declared.hierarchy ∧ path ≠ target) ↔ isBelow target path = true := by
  constructor
  · rintro ⟨hlevel, hne⟩
    obtain ⟨inner, hinner, hat⟩ := (Index.field?_hierarchy hdeclared).above path hlevel
    obtain rfl := Option.some.inj hinner
    exact hat.resolve_left hne
  · intro hbelow
    obtain ⟨rest, -, htarget⟩ := (Path.isBelow_iff target path).mp hbelow
    -- The index declares what is above the field, and agrees with the scope on what it is.
    obtain ⟨above, habove, -, hinitial⟩ := Index.exists_above hdeclared htarget
    obtain ⟨hshape, -⟩ := agreesAt_of_objectField hobject index hindex above habove
    have hlast := Index.getLast?_hierarchy habove (hlayout ▸ hshape)
    exact ⟨hinitial.subset (List.mem_of_getLast? hlast), Path.ne_of_isBelow hbelow⟩

/-! ### The parts of predicates of a scope -/

/-- A part tests fields that indexes of the scope declare, and its hierarchy has the nested objects
around each of them. -/
def Locates (scope : Scope) (part : Part) : Prop :=
  part.paths ≠ [] ∧ ∀ target ∈ part.paths, ∃ index ∈ scope.indexes, ∃ declared,
    index.field? target = some declared ∧
      ∀ level, level ∈ part.hierarchy ↔ level ∈ declared.hierarchy ∧ level ≠ target

/-- A resolved field predicate is a part of the scope, since none of its fields is a level of its
hierarchy. -/
theorem locates_of_resolves {p : FieldPredicate} (h : Resolves scope p) :
    Locates scope ⟨p.hierarchy, p.paths⟩ := by
  obtain ⟨hne, hfields⟩ := h
  refine ⟨hne, fun target htarget => ?_⟩
  obtain ⟨field, hfield, hhierarchy⟩ := hfields target htarget
  obtain ⟨index, hindex, declared, hdeclared, hshape, heq⟩ := exists_of_valueField hfield
  have hsame : declared.hierarchy = p.hierarchy := by rw [← hhierarchy, heq]
  refine ⟨index, hindex, declared, hdeclared, fun level => ?_⟩
  rw [hsame]
  refine ⟨fun hlevel => ⟨hlevel, ?_⟩, fun hlevel => hlevel.1⟩
  -- A level is an object, and the field is a value.
  rintro rfl
  obtain ⟨object, hobject, hnested, -⟩ := Index.exists_enclosing hdeclared (hsame ▸ hlevel)
  obtain rfl := Option.some.inj (hdeclared.symm.trans hobject)
  simp [hshape] at hnested

/-- A nested predicate is a part of the scope, which stands in the levels outside its own. -/
theorem locates_of_nested {inner p : Predicate} (h : scope.nested path inner = .ok p) :
    ∃ parents, p = .nested path parents inner ∧ Locates scope ⟨parents, [path]⟩ := by
  obtain ⟨object, hobject, -, hcreate⟩ := nested_eq_ok_iff.mp h
  obtain ⟨hlast, -, -, rfl⟩ := Predicate.createNested_eq_ok_iff.mp hcreate
  obtain rfl := path_of_objectField hobject
  refine ⟨object.hierarchy.dropLast, rfl, List.cons_ne_nil _ _, fun target htarget => ?_⟩
  obtain rfl := List.mem_singleton.mp htarget
  obtain ⟨index, hindex, declared, hdeclared, -, heq⟩ := exists_of_objectField hobject
  have hsame : declared.hierarchy = object.hierarchy := by rw [heq]
  refine ⟨index, hindex, declared, hdeclared, fun level => ?_⟩
  -- The last level is the object itself, and no other one is.
  obtain ⟨outer, houter⟩ := List.getLast?_eq_some_iff.mp hlast
  have hchain := (Index.field?_hierarchy hdeclared).chain
  rw [hsame, houter] at hchain
  rw [hsame, houter, List.dropLast_concat, List.mem_append, List.mem_singleton]
  constructor
  · intro hlevel
    refine ⟨.inl hlevel, ?_⟩
    rintro rfl
    exact Path.not_mem_of_chain hchain hlevel List.mem_cons_self
  · exact fun ⟨hlevel, hne⟩ => hlevel.resolve_right hne

/-- The parts of predicates that are assembled with a scope are located by it. -/
theorem Assembled.locates {p : Predicate} (h : Assembled scope p) :
    ∀ part ∈ p.parts, Locates scope part := by
  induction h with
  | matchAll boost => exact fun _ hpart => absurd hpart List.not_mem_nil
  | ids h =>
      unfold Predicate.ofIds at h
      split at h
      · simp at h
      · obtain rfl := Except.ok.inj h
        exact fun _ hpart => absurd hpart List.not_mem_nil
  | field h =>
      intro part hpart
      obtain rfl := List.mem_singleton.mp hpart
      exact locates_of_resolves h.resolves
  | bool minimum boost h ih =>
      intro part hpart
      rw [Predicate.parts, Predicate.clauseParts_eq_flatMap, List.mem_flatMap] at hpart
      obtain ⟨clause, hclause, hpart⟩ := hpart
      exact ih clause hclause part hpart
  | nested hinner h ih =>
      -- What is inside a nested predicate is not among its parts.
      intro part hpart
      obtain ⟨parents, rfl, hlocates⟩ := locates_of_nested h
      obtain rfl := List.mem_singleton.mp hpart
      exact hlocates

/-- A located part fits into a nested object if all that it tests lies below the object. -/
theorem check_eq_ok_iff_isBelow {object : ObjectField}
    (hobject : scope.objectField path = .ok object) (hlayout : object.layout = .nested)
    {part : Part} (hpart : Locates scope part) :
    part.check (some path) = .ok () ↔ ∀ target ∈ part.paths, isBelow target path = true := by
  obtain ⟨hne, htargets⟩ := hpart
  -- For each target the level is in the hierarchy of the part if the target lies below it.
  have htarget : ∀ target ∈ part.paths, (path ∈ part.hierarchy ↔ isBelow target path = true) := by
    intro target hmem
    obtain ⟨index, hindex, declared, hdeclared, hlevels⟩ := htargets target hmem
    rw [hlevels, mem_hierarchy_iff_isBelow hobject hlayout hindex hdeclared]
  rw [Part.check_eq_ok_iff]
  constructor
  · intro hfits target hmem
    exact (htarget target hmem).mp (hfits path rfl)
  · intro hbelow level hlevel
    obtain rfl := Option.some.inj hlevel
    obtain ⟨target, hmem⟩ := List.exists_mem_of_ne_nil _ hne
    exact (htarget target hmem).mpr (hbelow target hmem)

/-- A nested object that a scope resolves can be made a nested predicate of whatever fits into
it. -/
theorem nested_eq_ok_of_checkWithin {object : ObjectField}
    (hobject : scope.objectField path = .ok object) (hlayout : object.layout = .nested)
    {inner : Predicate} (hinner : inner.checkWithin (some path) = .ok ()) :
    scope.nested path inner = .ok (.nested path object.hierarchy.dropLast inner) := by
  obtain ⟨index, -, declared, hdeclared, hshape, heq⟩ := exists_of_objectField hobject
  have hsame : declared.hierarchy = object.hierarchy := by rw [heq]
  have hlast := Index.getLast?_hierarchy hdeclared (hlayout ▸ hshape)
  have hchain := (Index.field?_hierarchy hdeclared).chain
  rw [hsame] at hlast hchain
  rw [nested_eq_ok_iff]
  refine ⟨object, hobject, hlayout, ?_⟩
  rw [path_of_objectField hobject, Predicate.createNested_eq_ok_iff]
  exact ⟨hlast, Path.checkChain_eq_ok_iff.mpr hchain, hinner, rfl⟩

/-- When an explicit nested predicate can be made. Its path has to resolve to a nested object, and
every part of the inner predicate, a predicate of the same scope, has to lie strictly below the
path: all fields of its field predicates and the objects of its nested predicates, as far as they
have nothing but bool clauses around them. Predicates without parts fit into any nested object. -/
theorem nested_succeeds_iff {inner : Predicate} (h : Assembled scope inner) (path : String) :
    (∃ p, scope.nested path inner = .ok p) ↔
      ∃ object, scope.objectField path = .ok object ∧ object.layout = .nested ∧
        ∀ part ∈ inner.parts, ∀ target ∈ part.paths,
          ∃ below : String, below ≠ "" ∧ target = path ++ "." ++ below := by
  have hfits : ∀ object : ObjectField, scope.objectField path = .ok object →
      object.layout = .nested → (inner.checkWithin (some path) = .ok () ↔
        ∀ part ∈ inner.parts, ∀ target ∈ part.paths, isBelow target path = true) := by
    intro object hobject hlayout
    rw [Predicate.checkWithin_eq_ok_iff]
    exact forall₂_congr fun part hpart =>
      check_eq_ok_iff_isBelow hobject hlayout (h.locates part hpart)
  simp only [← Path.isBelow_iff_exists_append]
  constructor
  · rintro ⟨p, hp⟩
    obtain ⟨object, hobject, hlayout, hcreate⟩ := nested_eq_ok_iff.mp hp
    obtain ⟨-, -, hinner, -⟩ := Predicate.createNested_eq_ok_iff.mp hcreate
    rw [path_of_objectField hobject] at hinner
    exact ⟨object, hobject, hlayout, (hfits object hobject hlayout).mp hinner⟩
  · rintro ⟨object, hobject, hlayout, hbelow⟩
    exact ⟨_, nested_eq_ok_of_checkWithin hobject hlayout
      ((hfits object hobject hlayout).mpr hbelow)⟩

/-- A test two levels down, as such and in the object it stands in. -/
def innerLevels : Predicate :=
  .bool [(.must, .field deepTest), (.should, .matchAll none),
    (.filter, .nested "a.b" ["a"] (.field deepTest))] none none

/-- What goes into the outer object does not go into the inner one, as one part of it is just that
object. -/
theorem nested_succeeds_iff_innerLevels :
    Assembled twoLevels innerLevels ∧ (∃ p, twoLevels.nested "a" innerLevels = .ok p) ∧
      ¬∃ p, twoLevels.nested "a.b" innerLevels = .ok p := by
  have htest : Assembled twoLevels (.field deepTest) :=
    .field (.existsField (show twoLevels.existsField "a.b.c" = .ok deepTest from rfl))
  have hnested : Assembled twoLevels (.nested "a.b" ["a"] (.field deepTest)) :=
    .nested htest (show twoLevels.nested "a.b" _ = .ok _ from rfl)
  have hinner : Assembled twoLevels innerLevels :=
    .bool none none (by simpa using ⟨htest, .matchAll none, hnested⟩)
  refine ⟨hinner, (nested_succeeds_iff hinner "a").mpr ?_, fun hsucceeds => ?_⟩
  · refine ⟨⟨"a", .nested, ["a"]⟩, rfl, rfl, ?_⟩
    simp only [← Path.isBelow_iff_exists_append]
    decide
  · -- The object of the nested predicate is not below itself.
    obtain ⟨-, -, -, hbelow⟩ := (nested_succeeds_iff hinner "a.b").mp hsucceeds
    have hself := hbelow ⟨["a"], ["a.b"]⟩
      (by simp [innerLevels, Predicate.parts, Predicate.clauseParts]) "a.b" List.mem_cons_self
    exact Path.ne_of_isBelow (Path.isBelow_iff_exists_append.mpr hself) rfl

end Scope

end SearchDsl
