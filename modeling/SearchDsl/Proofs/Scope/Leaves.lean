import SearchDsl.Proofs.Predicate.Leaves
import SearchDsl.Proofs.Predicate.Levels
import SearchDsl.Proofs.Scope.Resolution
import SearchDsl.Scope.Predicates

/-!
# `SearchDsl.Proofs.Scope.Leaves`: predicates of a scope render to the right levels

`Predicate.leaves` says which leaf clauses a predicate stands for and in which nested objects each
belongs: a test of a field belongs in those around the field. `Scope.Assembled` are the predicates
that are put together with the functions of a scope. `Scope.build_leaves` says that the query of
such a predicate has just these leaves, each at its place.

The levels above a leaf come from three sources: explicit nested predicates, the levels that
rendering adds, and the context that bool clauses hand on. The invariant is that the context is a
nested object of the scope and that everything of its hierarchy is in place already
(`Scope.Provides`). What remains to be added is the rest of the hierarchy, because that of the
context is an initial part (`Scope.append_levelsBelow`).
-/

set_option autoImplicit false

namespace SearchDsl

namespace Predicate

mutual

/-- The leaf clauses of a predicate, with the nested objects that each belongs in. For a field these
are the ones around the field, as the scope resolves it. Other leaves stay where they are put. -/
def leaves (scope : Scope) (around : List String) : Predicate → Except Error (List Leaf)
  | matchAll boost =>
      .ok [⟨around, .single "match_all" (.object (Json.member? "boost" (boost.map .ofSingle)))⟩]
  | ids values => .ok [⟨around, .single "ids" (.single "values" (.strings values))⟩]
  | field p =>
      p.paths.mapM fun path => do
        let field ← scope.valueField path
        pure ⟨field.hierarchy, p.test.clause p.boost path⟩
  | nested path _ inner => do
      let object ← scope.objectField path
      leaves scope object.hierarchy inner
  | bool clauses _ _ => clauseLeaves scope around clauses

/-- The leaf clauses of the clauses of a bool predicate. -/
def clauseLeaves (scope : Scope) (around : List String) :
    List (Occur × Predicate) → Except Error (List Leaf)
  | [] => .ok []
  | (_, clause) :: rest => do
      let first ← leaves scope around clause
      let others ← clauseLeaves scope around rest
      pure (first ++ others)

end

end Predicate

/-! ### Predicates of a scope -/

namespace Scope

/-- The field predicates that a scope makes, with any boost and slop. -/
inductive AssembledField (scope : Scope) : FieldPredicate → Prop
  | matchField {path : String} {value : FieldValue} {p : FieldPredicate}
      (h : scope.matchField path value = .ok p) : AssembledField scope p
  | matchFields {paths : List String} {value : FieldValue} {p : FieldPredicate}
      (h : scope.matchFields paths value = .ok p) : AssembledField scope p
  | fuzzyMatch {path text : String} {fuzziness : UInt8} {p : FieldPredicate}
      (h : scope.fuzzyMatch path text fuzziness = .ok p) : AssembledField scope p
  | phrase {path text : String} {p : FieldPredicate}
      (h : scope.phrase path text = .ok p) : AssembledField scope p
  | wildcard {path pattern : String} {p : FieldPredicate}
      (h : scope.wildcard path pattern = .ok p) : AssembledField scope p
  | existsField {path : String} {p : FieldPredicate}
      (h : scope.existsField path = .ok p) : AssembledField scope p
  | range {path : String} {limits : RangeLimits} {p : FieldPredicate}
      (h : scope.range path limits = .ok p) : AssembledField scope p
  | withBoost {p : FieldPredicate} (boost : Option Single) (h : AssembledField scope p) :
      AssembledField scope (p.withBoost boost)
  | withSlop {p : FieldPredicate} (slop : UInt32) (h : AssembledField scope p) :
      AssembledField scope (p.withSlop slop)

/-- The predicates that are assembled with the functions of a scope. -/
inductive Assembled (scope : Scope) : Predicate → Prop
  | matchAll (boost : Option Single) : Assembled scope (.matchAll boost)
  | ids {ids : List String} {p : Predicate} (h : Predicate.ofIds ids = .ok p) : Assembled scope p
  | field {p : FieldPredicate} (h : AssembledField scope p) : Assembled scope (.field p)
  | bool {clauses : List (Occur × Predicate)} (minimum : Option UInt32) (boost : Option Single)
      (h : ∀ clause ∈ clauses, Assembled scope clause.2) :
      Assembled scope (.bool clauses minimum boost)
  | nested {path : String} {inner p : Predicate} (hinner : Assembled scope inner)
      (h : scope.nested path inner = .ok p) : Assembled scope p

end Scope

/-! ### Field predicates -/

/-- A test of several fields is made if they stand in the same nested objects and the constructor
takes them. -/
theorem ValueField.test_eq_ok_iff {first : ValueField} {others : List ValueField}
    {test : FieldTest} {p : FieldPredicate} : first.test others test = .ok p ↔
      (∀ other ∈ others, other.hierarchy = first.hierarchy) ∧
        FieldPredicate.create (first.path :: others.map ValueField.path) first.hierarchy test
          = .ok p := by
  unfold ValueField.test
  cases hfind : others.find? fun field => field.hierarchy ≠ first.hierarchy with
  | none =>
      have hall : ∀ other ∈ others, other.hierarchy = first.hierarchy := fun other hother => by
        simpa using List.find?_eq_none.mp hfind other hother
      exact ⟨fun h => ⟨hall, h⟩, fun h => h.2⟩
  | some other =>
      refine ⟨fun h => by simp at h, fun h => ?_⟩
      have hdiffer : other.hierarchy ≠ first.hierarchy := by simpa using List.find?_some hfind
      exact absurd (h.1 other (List.mem_of_find?_eq_some hfind)) hdiffer

namespace Scope

variable {scope : Scope}

/-- The scope resolves all fields of a predicate, at least one, with the hierarchy that the
predicate has. -/
def Resolves (scope : Scope) (p : FieldPredicate) : Prop :=
  p.paths ≠ [] ∧ ∀ path ∈ p.paths, ∃ field, scope.valueField path = .ok field ∧
    field.hierarchy = p.hierarchy

/-- A resolved field resolves again by the path that it has. -/
theorem valueField_path {path : String} {field : ValueField}
    (h : scope.valueField path = .ok field) : scope.valueField field.path = .ok field := by
  rw [path_of_valueField h]
  exact h

/-- What is created for resolved fields of one hierarchy is resolved. -/
theorem resolves_of_test {first : ValueField} {others : List ValueField} {test : FieldTest}
    {p : FieldPredicate} (h : first.test others test = .ok p)
    (hfields : ∀ field ∈ first :: others, scope.valueField field.path = .ok field) :
    Resolves scope p := by
  obtain ⟨hsame, hcreate⟩ := ValueField.test_eq_ok_iff.mp h
  obtain ⟨hne, -, -, rfl⟩ := FieldPredicate.create_eq_ok_iff.mp hcreate
  refine ⟨hne, fun path hpath => ?_⟩
  rcases List.mem_cons.mp hpath with rfl | hmem
  · exact ⟨first, hfields first List.mem_cons_self, rfl⟩
  · obtain ⟨other, hother, rfl⟩ := List.mem_map.mp hmem
    exact ⟨other, hfields other (List.mem_cons_of_mem _ hother), hsame other hother⟩

/-- A match of several fields is made of resolved ones. -/
theorem resolves_of_matchFields {paths : List String} {value : FieldValue} {p : FieldPredicate}
    (h : scope.matchFields paths value = .ok p) : Resolves scope p := by
  unfold matchFields at h
  cases paths with
  | nil => simp at h
  | cons path paths =>
      obtain ⟨first, hfirst, h⟩ := Steps.bind_eq_ok_iff.mp h
      obtain ⟨others, hothers, h⟩ := Steps.bind_eq_ok_iff.mp h
      obtain ⟨-, h⟩ := Steps.check_eq_ok_iff.mp h
      obtain ⟨json, -, htest⟩ := Steps.bind_eq_ok_iff.mp h
      refine resolves_of_test htest (List.forall_mem_cons.mpr ⟨valueField_path hfirst, ?_⟩)
      intro other hother
      obtain ⟨source, -, hsource⟩ := Steps.exists_of_mem_mapM hothers hother
      exact valueField_path hsource

/-- A field for tests of texts is a resolved field. -/
theorem valueField_of_textField {path : String} {field : ValueField}
    (h : scope.textField path = .ok field) : scope.valueField path = .ok field := by
  obtain ⟨found, hfound, h⟩ := Steps.bind_eq_ok_iff.mp h
  obtain ⟨-, h⟩ := Steps.check_eq_ok_iff.mp h
  obtain ⟨-, rfl⟩ := Steps.passIf_eq_ok_iff.mp h
  exact hfound

/-- A field for ranges is a resolved field. -/
theorem valueField_of_rangeField {path : String} {field : ValueField}
    (h : scope.rangeField path = .ok field) : scope.valueField path = .ok field := by
  obtain ⟨found, hfound, h⟩ := Steps.bind_eq_ok_iff.mp h
  obtain ⟨-, h⟩ := Steps.check_eq_ok_iff.mp h
  obtain ⟨-, rfl⟩ := Steps.passIf_eq_ok_iff.mp h
  exact hfound

/-- The field predicates of a scope are resolved. -/
theorem AssembledField.resolves {p : FieldPredicate} (h : AssembledField scope p) :
    Resolves scope p := by
  have hsingle : ∀ {path : String} {field : ValueField}, scope.valueField path = .ok field →
      ∀ other ∈ [field], scope.valueField other.path = .ok other := fun hfield other hother =>
    List.mem_singleton.mp hother ▸ valueField_path hfield
  induction h with
  | matchField h => exact resolves_of_matchFields h
  | matchFields h => exact resolves_of_matchFields h
  | fuzzyMatch h =>
      obtain ⟨field, hfield, h⟩ := Steps.bind_eq_ok_iff.mp h
      obtain ⟨-, htest⟩ := Steps.throwIf_eq_ok_iff.mp h
      exact resolves_of_test htest (hsingle (valueField_of_textField hfield))
  | phrase h =>
      obtain ⟨field, hfield, htest⟩ := Steps.bind_eq_ok_iff.mp h
      exact resolves_of_test htest (hsingle (valueField_of_textField hfield))
  | wildcard h =>
      obtain ⟨field, hfield, htest⟩ := Steps.bind_eq_ok_iff.mp h
      exact resolves_of_test htest (hsingle (valueField_of_textField hfield))
  | existsField h =>
      obtain ⟨field, hfield, h⟩ := Steps.bind_eq_ok_iff.mp h
      obtain ⟨-, htest⟩ := Steps.check_eq_ok_iff.mp h
      exact resolves_of_test htest (hsingle hfield)
  | range h =>
      obtain ⟨field, hfield, h⟩ := Steps.bind_eq_ok_iff.mp h
      obtain ⟨⟨lower, upper⟩, -, hcreate⟩ := Steps.bind_eq_ok_iff.mp h
      obtain ⟨hne, -, -, rfl⟩ := FieldPredicate.create_eq_ok_iff.mp hcreate
      refine ⟨hne, fun path hpath => ⟨field, ?_, rfl⟩⟩
      rw [List.mem_singleton.mp hpath]
      exact valueField_path (valueField_of_rangeField hfield)
  | withBoost boost h ih => cases boost <;> exact ih
  | withSlop slop h ih =>
      unfold FieldPredicate.withSlop
      split <;> exact ih

end Scope

/-! ### Contexts -/

namespace Scope

variable {scope : Scope}

/-- The nested clauses in place in a context: none at the root, and in the context of a nested
object those of its hierarchy. -/
inductive Provides (scope : Scope) : Option String → List String → Prop
  | root : Provides scope none []
  | inside {path : String} {object : ObjectField} (h : scope.objectField path = .ok object) :
      Provides scope (some path) object.hierarchy

/-- The levels that the context provides and those that it does not are all levels, in order. -/
theorem append_levelsBelow {context : Option String} {around : List String}
    (hcontext : Provides scope context around) {index : Index} (hindex : index ∈ scope.indexes)
    {path : String} {declared : Descriptor} (hdeclared : index.field? path = some declared)
    (hlevel : ∀ level, context = some level → level ∈ declared.hierarchy) :
    around ++ levelsBelow context declared.hierarchy = declared.hierarchy := by
  cases hcontext with
  | root => rw [levelsBelow_none, List.nil_append]
  | @inside level object hobject =>
      obtain ⟨⟨after, hsplit⟩, hlast⟩ :=
        hierarchy_of_level hindex hdeclared (hlevel level rfl) hobject
      obtain ⟨outer, houter⟩ := List.getLast?_eq_some_iff.mp hlast
      have hlevels : declared.hierarchy = outer ++ level :: after := by
        rw [← hsplit, houter, List.append_assoc, List.singleton_append]
      have hchain := (Index.field?_hierarchy hdeclared).chain
      rw [hlevels] at hchain
      rw [hlevels, levelsBelow_level hchain, houter, List.append_assoc, List.singleton_append]

/-! ### Rendering -/

/-- What a predicate renders to in a context: a query whose leaves are those of the predicate. -/
def RendersLeaves (scope : Scope) (context : Option String) (around : List String)
    (p : Predicate) : Prop :=
  ∃ json leaves, p.build context = .ok json ∧ p.leaves scope around = .ok leaves ∧
    (json.leaves around).Perm leaves

/-- A field predicate that passes the check renders to its leaves: the nested clauses in place and
those that it adds are its hierarchy. -/
theorem rendersLeaves_field {context : Option String} {around : List String}
    (hcontext : Provides scope context around) {p : FieldPredicate} (hp : Resolves scope p)
    (hcheck : p.checkWithin context = .ok ()) :
    RendersLeaves scope context around (.field p) := by
  obtain ⟨hne, hfields⟩ := hp
  refine ⟨wrapNested p.hierarchy context p.body,
    p.paths.map fun path => ⟨p.hierarchy, p.test.clause p.boost path⟩, ?_, ?_, ?_⟩
  · rw [Predicate.build, FieldPredicate.build, Steps.check_eq_ok_iff]
    exact ⟨hcheck, rfl⟩
  · rw [Predicate.leaves, Steps.mapM_eq_ok_iff, List.forall₂_map_right_iff]
    refine List.forall₂_same.mpr fun path hpath => ?_
    obtain ⟨field, hfield, hhierarchy⟩ := hfields path hpath
    rw [Steps.bind_eq_ok_iff]
    exact ⟨field, hfield, by rw [hhierarchy]; rfl⟩
  · -- The fields have one hierarchy, so any of them says which levels there are.
    obtain ⟨first, hfirst⟩ := List.exists_mem_of_ne_nil _ hne
    obtain ⟨field, hfield, hhierarchy⟩ := hfields first hfirst
    obtain ⟨index, hindex, declared, hdeclared, -, heq⟩ := exists_of_valueField hfield
    have hdeclaredHierarchy : declared.hierarchy = p.hierarchy := by
      rw [← hhierarchy, heq]
    have hlevels := append_levelsBelow hcontext hindex hdeclared
      (hdeclaredHierarchy ▸ checkContext_eq_ok_iff.mp hcheck)
    rw [hdeclaredHierarchy] at hlevels
    rw [leaves_wrapNested, hlevels, FieldPredicate.leaves_body]

/-- A nested predicate is made at a nested object, if the constructor takes what is in it. -/
theorem nested_eq_ok_iff {path : String} {inner p : Predicate} :
    scope.nested path inner = .ok p ↔ ∃ object, scope.objectField path = .ok object ∧
      object.layout = .nested ∧
        Predicate.createNested object.path object.hierarchy inner = .ok p := by
  unfold nested
  rw [Steps.bind_eq_ok_iff]
  simp only [Steps.throwIf_eq_ok_iff, not_not]

/-- A nested predicate that passes the check renders to its leaves if what is in it does, in the
context that it puts around that. -/
theorem rendersLeaves_nested {context : Option String} {around : List String}
    (hcontext : Provides scope context around) {path : String} {inner p : Predicate}
    (hnested : scope.nested path inner = .ok p) (hcheck : p.checkWithin context = .ok ())
    (ih : ∀ {context around}, Provides scope context around →
      inner.checkWithin context = .ok () → RendersLeaves scope context around inner) :
    RendersLeaves scope context around p := by
  obtain ⟨object, hobject, -, hcreate⟩ := nested_eq_ok_iff.mp hnested
  obtain ⟨hlast, -, hinner, rfl⟩ := Predicate.createNested_eq_ok_iff.mp hcreate
  obtain rfl := path_of_objectField hobject
  obtain ⟨json, leaves, hbuild, hleaves, hperm⟩ := ih (.inside hobject) hinner
  have hlevels := checkContext_eq_ok_iff.mp hcheck
  refine ⟨wrapNested object.hierarchy.dropLast context (nestedClause object.path json), leaves,
    ?_, ?_, ?_⟩
  · rw [Predicate.build, Steps.check_eq_ok_iff, Steps.bind_eq_ok_iff]
    exact ⟨hcheck, json, hbuild, rfl⟩
  · rw [Predicate.leaves, Steps.bind_eq_ok_iff]
    exact ⟨object, hobject, hleaves⟩
  · -- What wrapping adds and the object itself complete the hierarchy of the object, in which the
    -- inner query stands by induction.
    obtain ⟨index, hindex, declared, hdeclared, -, heq⟩ := exists_of_objectField hobject
    have hdeclaredHierarchy : declared.hierarchy = object.hierarchy := by rw [heq]
    obtain ⟨outer, houter⟩ := List.getLast?_eq_some_iff.mp hlast
    have hdrop : object.hierarchy.dropLast = outer := by rw [houter, List.dropLast_concat]
    rw [hdrop] at hlevels ⊢
    -- The object is not the context, which encloses it.
    have hne : context ≠ some object.path := by
      intro heq'
      have hchain := (Index.field?_hierarchy hdeclared).chain
      rw [hdeclaredHierarchy, houter] at hchain
      exact Path.not_mem_of_chain hchain (hlevels _ heq') List.mem_cons_self
    have hchain := append_levelsBelow hcontext hindex hdeclared fun level hlevel => by
      rw [hdeclaredHierarchy, houter]
      exact List.mem_append_left _ (hlevels level hlevel)
    rw [hdeclaredHierarchy, houter,
      levelsBelow_append fun level hlevel => List.mem_singleton.mp hlevel ▸ hne, ← houter] at hchain
    rw [leaves_wrapNested, Json.leaves_nestedClause, List.append_assoc, hchain]
    exact hperm

/-- Clauses that each render to their leaves. -/
theorem exists_buildClauses {context : Option String} {around : List String}
    {clauses : List (Occur × Predicate)}
    (h : ∀ clause ∈ clauses, RendersLeaves scope context around clause.2) :
    ∃ (built : List (Occur × Json)) (leaves : List Leaf),
      Predicate.buildClauses context clauses = built.map (fun clause => (clause.1, .ok clause.2)) ∧
      Predicate.clauseLeaves scope around clauses = .ok leaves ∧
      (built.flatMap fun clause => clause.2.leaves around).Perm leaves := by
  induction clauses with
  | nil => exact ⟨[], [], rfl, rfl, .nil⟩
  | cons clause clauses ih =>
      obtain ⟨occur, p⟩ := clause
      obtain ⟨json, first, hbuild, hfirst, hperm⟩ := h (occur, p) List.mem_cons_self
      obtain ⟨built, others, hbuilt, hothers, hpermOthers⟩ :=
        ih fun clause hclause => h clause (List.mem_cons_of_mem _ hclause)
      refine ⟨(occur, json) :: built, first ++ others, ?_, ?_, hperm.append hpermOthers⟩
      · rw [Predicate.buildClauses, hbuild, hbuilt, List.map_cons]
      · rw [Predicate.clauseLeaves, Steps.bind_eq_ok_iff]
        exact ⟨first, hfirst, Steps.bind_eq_ok_iff.mpr ⟨others, hothers, rfl⟩⟩

/-- In any context that takes it, a predicate of the scope renders to its leaves. -/
theorem Assembled.rendersLeaves {p : Predicate} (h : Assembled scope p) :
    ∀ {context : Option String} {around : List String}, Provides scope context around →
      p.checkWithin context = .ok () → RendersLeaves scope context around p := by
  -- Induction on how the predicate is put together. A nested predicate changes the context, so the
  -- context is left open.
  induction h with
  | matchAll boost =>
      intro context around _ _
      exact ⟨_, _, rfl, rfl, .of_eq (Json.leaves_single around (by decide) (by decide) _)⟩
  | @ids values p h =>
      intro context around _ _
      unfold Predicate.ofIds at h
      split at h
      · simp at h
      · obtain rfl := Except.ok.inj h
        exact ⟨_, _, rfl, rfl, .of_eq (Json.leaves_single around (by decide) (by decide) _)⟩
  | field h =>
      intro context around hcontext hcheck
      exact rendersLeaves_field hcontext h.resolves hcheck
  | bool minimum boost h ih =>
      intro context around hcontext hcheck
      have hclauses := Predicate.checkWithin_bool_eq_ok_iff.mp hcheck
      obtain ⟨built, leaves, hbuilt, hleaves, hperm⟩ := exists_buildClauses
        fun clause hclause => ih clause hclause hcontext (hclauses clause hclause)
      obtain ⟨json, hjson, hquery⟩ := Predicate.boolQuery_leaves minimum boost built around
      refine ⟨json, leaves, ?_, hleaves, hquery.trans hperm⟩
      rw [Predicate.build, hbuilt, hjson]
  | nested hinner h ih =>
      intro context around hcontext hcheck
      exact rendersLeaves_nested hcontext h hcheck ih

/-- A predicate that is assembled with the functions of a scope renders at the root, to a query that
has exactly the leaf clauses of the predicate. Each stands in the nested clauses of all nested
objects around its field, outermost first, and in no others. -/
theorem build_leaves {p : Predicate} (h : Assembled scope p) :
    ∃ json leaves, p.build none = .ok json ∧ p.leaves scope [] = .ok leaves ∧
      (json.leaves []).Perm leaves :=
  h.rendersLeaves .root (Predicate.checkWithin_none p)

/-- Two indexes, one of which has a nested object inside a nested object. -/
def twoLevels : Scope :=
  let shallow : List Definition := [.object "a" .nested false [.value "t" { kind := .text } false]]
  let deep : List Definition :=
    [.object "a" .nested false
      [.object "b" .nested false [.value "c" { kind := .keyword } false]]]
  ⟨[⟨"shallow", shallow, by decide, rfl⟩, ⟨"deep", deep, by decide, rfl⟩], by simp⟩

/-- A test of a field two levels down. -/
def deepTest : FieldPredicate :=
  { paths := ["a.b.c"], hierarchy := ["a", "a.b"], test := .exists }

/-- The same test at the root and in an explicit nested predicate. -/
def mixedLevels : Predicate :=
  .bool [(.must, .field deepTest),
    (.filter, .nested "a" [] (.bool [(.mustNot, .field deepTest), (.should, .matchAll none)]
      none none))] none none

/-- One test below two levels stands at the root and in an explicit nested predicate, and each time
its leaf is below both. -/
theorem build_leaves_mixedLevels :
    Assembled twoLevels mixedLevels ∧
      ∃ json leaves, mixedLevels.build none = .ok json ∧
        mixedLevels.leaves twoLevels [] = .ok leaves ∧ (json.leaves []).Perm leaves := by
  have htest : Assembled twoLevels (.field deepTest) :=
    .field (.existsField (show twoLevels.existsField "a.b.c" = .ok deepTest from rfl))
  have hinner : Assembled twoLevels
      (.bool [(.mustNot, .field deepTest), (.should, .matchAll none)] none none) :=
    .bool none none (by simpa using ⟨htest, .matchAll none⟩)
  have hnested : Assembled twoLevels
      (.nested "a" [] (.bool [(.mustNot, .field deepTest), (.should, .matchAll none)] none none)) :=
    .nested hinner (show twoLevels.nested "a" _ = .ok _ from rfl)
  have hmixed : Assembled twoLevels mixedLevels :=
    .bool none none (by simpa using ⟨htest, hnested⟩)
  exact ⟨hmixed, build_leaves hmixed⟩

end Scope

end SearchDsl
