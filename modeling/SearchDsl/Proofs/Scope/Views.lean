import SearchDsl.Proofs.Schema.Mapping
import SearchDsl.Proofs.Scope.Leaves
import SearchDsl.SortCriterion

/-!
# `SearchDsl.Proofs.Scope.Views`: mapping, queries and sorts agree on nesting

What is nested where shows up in four places: in the hierarchies of descriptors, in the mapping of
an index, in the clauses of a rendered predicate and in the nested option of a rendered sort.
`Index.nesting_views_agree` says that all of them list the same paths, those that the mapping tells.
-/

set_option autoImplicit false

namespace SearchDsl

namespace Json

/-- The paths of a chain of nested options, outermost first. -/
def chainPaths : Json → List String
  | object [("path", string path)] => [path]
  | object [("nested", inner), ("path", string path)] => path :: chainPaths inner
  | _ => []

end Json

namespace Dialect

/-- A chain of nested options lists the hierarchy that it was made of. -/
theorem chainPaths_nestedChain (hierarchy : List String) :
    (nestedChain hierarchy).map Json.chainPaths
      = if hierarchy = [] then none else some hierarchy := by
  induction hierarchy with
  | nil => rfl
  | cons path inner ih =>
      rw [nestedChain, Option.map_some, if_neg (List.cons_ne_nil _ _)]
      -- The inner levels make a chain unless there are none.
      cases hchain : nestedChain inner with
      | none =>
          have hinner : inner = [] := by
            by_contra hne
            rw [hchain, if_neg hne] at ih
            simp at ih
          subst hinner
          rfl
      | some chain =>
          have hinner : Json.chainPaths chain = inner := by
            rw [hchain, Option.map_some] at ih
            split at ih
            · simp at ih
            · exact Option.some.inj ih
          show some (path :: Json.chainPaths chain) = _
          rw [hinner]

end Dialect

namespace SortCriterion

/-- An option of a rendered criterion, below the path of its field. -/
def option? (dialect : Dialect) (criterion : SortCriterion) (path key : String) : Option Json :=
  ((criterion.toJson dialect).get? path).bind (Json.get? key)

/-- The options of a sort on a field stand below its path. -/
theorem get?_toJson_field (dialect : Dialect) (sort : FieldSort) :
    ((field sort).toJson dialect).get? sort.path
      = some (.object (("missing", sort.missing.toJson) ::
        (dialect.nestedSort sort.hierarchy ++ [("order", .string sort.direction.name)]))) := by
  unfold toJson
  rw [Json.get?_single_self]
  rfl

/-- The nested option of a rendered sort lists its hierarchy, except in the oldest dialect. -/
theorem chainPaths_nested {dialect : Dialect} (h : dialect ≠ .v56) (sort : FieldSort) :
    (option? dialect (field sort) sort.path "nested").map Json.chainPaths
      = if sort.hierarchy = [] then none else some sort.hierarchy := by
  have hnested : dialect.nestedSort sort.hierarchy
      = Json.member? "nested" (Dialect.nestedChain sort.hierarchy) := by
    cases dialect with
    | v56 => exact absurd rfl h
    | _ => rfl
  unfold option?
  rw [← Dialect.chainPaths_nestedChain, get?_toJson_field, hnested]
  congr 1
  exact Json.find?_member?_self "nested" _ rfl

/-- The nested option of the oldest dialect names the last level of the hierarchy. -/
theorem nestedPath_eq (sort : FieldSort) :
    option? .v56 (field sort) sort.path "nested_path" = sort.hierarchy.getLast?.map .string := by
  unfold option?
  rw [get?_toJson_field]
  exact Json.find?_member?_self "nested_path" _ rfl

end SortCriterion

namespace Scope

variable {scope : Scope} {index : Index} {path : String} {declared : Descriptor}

/-- An index of a scope agrees with a resolved value field. -/
theorem hierarchy_of_valueField (hindex : index ∈ scope.indexes)
    (hdeclared : index.field? path = some declared) {field : ValueField}
    (hfield : scope.valueField path = .ok field) : field.hierarchy = declared.hierarchy := by
  obtain ⟨-, -, -, hnesting⟩ := agreesAt_of_valueField hfield index hindex declared hdeclared
  exact hnesting.symm

/-- The scope of a single index resolves every value field of the index. -/
theorem valueField_single {type : FieldType} (hdeclared : index.field? path = some declared)
    (hshape : declared.shape = .value type) : (single index).valueField path
      = .ok ⟨path, type, declared.hierarchy, declared.multiValued⟩ :=
  valueField_eq_ok_iff.mpr (.singleton ⟨declared, hdeclared, hshape, rfl⟩)

/-- A searchable field of an index can be tested in the scope of that index. -/
theorem existsField_single {type : FieldType} (hdeclared : index.field? path = some declared)
    (hshape : declared.shape = .value type) (hsearchable : type.searchable = true) :
    (single index).existsField path
      = .ok { paths := [path], hierarchy := declared.hierarchy, test := .exists } := by
  unfold existsField
  rw [Steps.bind_eq_ok_iff]
  refine ⟨_, valueField_single hdeclared hshape,
    Steps.check_eq_ok_iff.mpr ⟨if_pos hsearchable, ?_⟩⟩
  rw [ValueField.test_eq_ok_iff, FieldPredicate.create_eq_ok_iff]
  exact ⟨fun _ hmem => absurd hmem List.not_mem_nil, List.cons_ne_nil _ _, by simp,
    Path.checkChain_eq_ok_iff.mpr (Index.field?_hierarchy hdeclared).chain, rfl⟩

/-- A test whether there is a value stands in the hierarchy of its field. -/
theorem existsField_eq_ok {p : FieldPredicate} (h : scope.existsField path = .ok p) :
    ∃ field, scope.valueField path = .ok field ∧
      p = { paths := [path], hierarchy := field.hierarchy, test := .exists } := by
  obtain ⟨field, hfield, h⟩ := Steps.bind_eq_ok_iff.mp h
  obtain ⟨-, htest⟩ := Steps.check_eq_ok_iff.mp h
  obtain ⟨-, hcreate⟩ := ValueField.test_eq_ok_iff.mp htest
  obtain ⟨-, -, -, rfl⟩ := FieldPredicate.create_eq_ok_iff.mp hcreate
  refine ⟨field, hfield, ?_⟩
  rw [path_of_valueField hfield]
  rfl

/-- A sort on a field stands in the hierarchy of its field. -/
theorem fieldSort_eq_ok {sort : FieldSort} (h : scope.fieldSort path = .ok sort) :
    ∃ field, scope.valueField path = .ok field ∧ sort.path = path ∧
      sort.hierarchy = field.hierarchy := by
  obtain ⟨field, hfield, h⟩ := Steps.bind_eq_ok_iff.mp h
  obtain ⟨-, h⟩ := Steps.throwIf_eq_ok_iff.mp h
  obtain ⟨-, h⟩ := Steps.check_eq_ok_iff.mp h
  obtain ⟨-, h⟩ := Steps.throwIf_eq_ok_iff.mp h
  obtain rfl := Steps.pure_eq_ok_iff.mp h
  exact ⟨field, hfield, path_of_valueField hfield, rfl⟩

/-- At the root a field predicate renders to one leaf per field, in its whole hierarchy. -/
theorem build_field_none (p : FieldPredicate) :
    ∃ json, p.build none = .ok json ∧
      json.leaves [] = p.paths.map fun path => ⟨p.hierarchy, p.test.clause p.boost path⟩ := by
  refine ⟨wrapNested p.hierarchy none p.body, rfl, ?_⟩
  rw [leaves_wrapNested, levelsBelow_none, List.nil_append, FieldPredicate.leaves_body]

end Scope

/-- All views of the nesting of a value field agree with what the mapping of its index tells: the
hierarchy of its descriptor, the nested clauses around a rendered test of the field, the nested
chain of a rendered sort, and the single nested path that the oldest dialect has instead. A
searchable field can be tested. -/
theorem Index.nesting_views_agree {index : Index} {path : String} {declared : Descriptor}
    {type : FieldType} (hdeclared : index.field? path = some declared)
    (hshape : declared.shape = .value type) :
    index.mappedNesting path = declared.hierarchy ∧
    (type.searchable = true → ∃ p, (Scope.single index).existsField path = .ok p) ∧
    ∀ scope : Scope, index ∈ scope.indexes →
      (∀ p, scope.existsField path = .ok p → ∃ json, p.build none = .ok json ∧
        json.leaves [] = [⟨index.mappedNesting path, FieldTest.exists.clause none path⟩]) ∧
      ∀ sort, scope.fieldSort path = .ok sort →
        ∀ (direction : SortDirection) (missing : MissingPlacement),
          let criterion := SortCriterion.field { sort with direction, missing }
          (∀ dialect, dialect ≠ .v56 →
            (criterion.option? dialect path "nested").map Json.chainPaths
              = if index.mappedNesting path = [] then none else some (index.mappedNesting path)) ∧
          criterion.option? .v56 path "nested_path"
            = (index.mappedNesting path).getLast?.map .string := by
  have hmapped := mappedNesting_eq_hierarchy hdeclared
  refine ⟨hmapped, fun hsearchable => ⟨_, Scope.existsField_single hdeclared hshape hsearchable⟩,
    fun scope hindex => ⟨fun p hp => ?_, fun sort hsort direction missing => ?_⟩⟩
  · obtain ⟨field, hfield, rfl⟩ := Scope.existsField_eq_ok hp
    obtain ⟨json, hjson, hleaves⟩ := Scope.build_field_none
      { paths := [path], hierarchy := field.hierarchy, test := .exists }
    refine ⟨json, hjson, ?_⟩
    rw [hleaves, hmapped, ← Scope.hierarchy_of_valueField hindex hdeclared hfield]
    rfl
  · obtain ⟨field, hfield, rfl, hhierarchy⟩ := Scope.fieldSort_eq_ok hsort
    rw [hmapped, ← Scope.hierarchy_of_valueField hindex hdeclared hfield, ← hhierarchy]
    exact ⟨fun dialect hdialect =>
      SortCriterion.chainPaths_nested hdialect { sort with direction, missing },
      SortCriterion.nestedPath_eq { sort with direction, missing }⟩

/-- An index with a flattened object between two nested ones. -/
def Index.interleaved : Index :=
  let innermost : Definition :=
    .object "c" .nested false [.value "d" { kind := .long, sortable := true } false]
  ⟨"interleaved", [.object "a" .nested false [.object "b" .flattened true [innermost]]],
    by decide, rfl⟩

/-- The flattened object between two nested ones is left out of the hierarchy in every view. -/
theorem Index.nesting_views_agree_interleaved :
    ∃ declared type sort, interleaved.field? "a.b.c.d" = some declared ∧
      declared.shape = .value type ∧
      interleaved.mappedNesting "a.b.c.d" = ["a", "a.b.c"] ∧
      (Scope.single interleaved).fieldSort "a.b.c.d" = .ok sort ∧
      (SortCriterion.field sort).option? .v56 "a.b.c.d" "nested_path"
        = some (.string "a.b.c") := by
  let type : FieldType := { kind := .long, sortable := true }
  let declared : Descriptor := ⟨"a.b.c.d", "d", .value type, false, ["a", "a.b.c"]⟩
  let sort : FieldSort := { path := "a.b.c.d", kind := .long, hierarchy := ["a", "a.b.c"] }
  have hdeclared : interleaved.field? "a.b.c.d" = some declared := rfl
  have hsort : (Scope.single interleaved).fieldSort "a.b.c.d" = .ok sort := rfl
  obtain ⟨hmapped, -, hviews⟩ := Index.nesting_views_agree hdeclared
    (show declared.shape = .value type from rfl)
  obtain ⟨-, hsorts⟩ := hviews (Scope.single interleaved) (by simp [Scope.single])
  refine ⟨declared, type, sort, hdeclared, rfl, hmapped, hsort, ?_⟩
  rw [(hsorts sort hsort .ascending .last).2, hmapped]
  rfl

end SearchDsl
