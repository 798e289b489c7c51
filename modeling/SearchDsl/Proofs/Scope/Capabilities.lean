import SearchDsl.Projection
import SearchDsl.Proofs.Scope.Agreement
import SearchDsl.Proofs.Scope.Leaves
import SearchDsl.SortCriterion

/-!
# `SearchDsl.Proofs.Scope.Capabilities`: which fields an operation accepts

Predicates, sorts and projections succeed under conditions of three sorts
(`Scope.accepts_iff_serves`): the paths resolve, the field types have the option that the operation
needs, and the kinds suit the operation and its values. Fields that are matched together also have
to be alike.

The indexes agree on all of this but the option, which is no trait of a value field. A resolved
field has the options of the first index that declares it, so that index is asked and the others are
not. `Scope.capability_of_first_index` says what an accepted operation means for the others, and
when the order of the indexes matters.
-/

set_option autoImplicit false

namespace SearchDsl

/-- The values that limits are made of. -/
def RangeLimits.values : RangeLimits → List FieldValue
  | atLeast value | greaterThan value | atMost value | lessThan value => [value]
  | between lower upper => [lower, upper]

/-! ### Single checks -/

namespace ValueField

variable {field first : ValueField}

/-- The check of searches looks at the flag of the type that was resolved. -/
theorem checkSearchable_eq_ok_iff :
    field.checkSearchable = .ok () ↔ field.type.searchable = true := by
  unfold checkSearchable
  split <;> simp_all

/-- So does the check of sorts. -/
theorem checkSortable_eq_ok_iff :
    field.checkSortable = .ok () ↔ field.type.sortable = true := by
  unfold checkSortable
  split <;> simp_all

/-- A field can be matched with the first one if it is searchable, no geo point and of the same
kind. -/
theorem checkMatched_eq_ok_iff : first.checkMatched field = .ok () ↔
    field.type.searchable = true ∧ field.type.kind ≠ .geoPoint ∧
      field.type.kind = first.type.kind := by
  unfold checkMatched
  rw [Steps.check_eq_ok_iff, checkSearchable_eq_ok_iff, Steps.throwIf_eq_ok_iff]
  by_cases hkind : field.type.kind = first.type.kind
  · simp [hkind, pure, Except.pure]
  · simp [hkind, throw, throwThe, MonadExceptOf.throw]

/-- A value is encoded if the kind of the field takes it. -/
theorem exists_encode_iff {value : FieldValue} :
    (∃ json, field.encode value = .ok json) ↔ (field.type.kind.encode? value).isSome = true := by
  unfold encode FieldKind.encode
  cases field.type.kind.encode? value <;> simp

/-- Limits can be used if their values can. -/
theorem exists_bounds_iff {limits : RangeLimits} : (∃ ends, field.bounds limits = .ok ends) ↔
    ∀ value ∈ limits.values, (field.type.kind.encode? value).isSome = true := by
  have hone : ∀ (value : FieldValue) (ends : Json → Bound × Bound),
      (∃ result, (field.encode value >>= fun json => pure (ends json)) = .ok result) ↔
        (field.type.kind.encode? value).isSome = true := by
    intro value ends
    rw [Steps.exists_bind_eq_ok_iff, ← exists_encode_iff]
    exact exists_congr fun json => and_iff_left ⟨ends json, rfl⟩
  cases limits with
  | atLeast value | greaterThan value | atMost value | lessThan value =>
      rw [RangeLimits.values, List.forall_mem_singleton]
      exact hone value _
  | between lower upper =>
      unfold bounds
      rw [Steps.exists_bind_eq_ok_iff]
      simp only [hone, exists_and_right, exists_encode_iff, RangeLimits.values,
        List.forall_mem_cons, List.not_mem_nil, false_implies, implies_true, and_true]

/-- The traits tell the kind. -/
theorem kind_eq_of_traits (h : field.traits = first.traits) :
    field.type.kind = first.type.kind := congrArg ValueTraits.kind h

/-- The traits tell the hierarchy. -/
theorem hierarchy_eq_of_traits (h : field.traits = first.traits) :
    field.hierarchy = first.hierarchy := congrArg ValueTraits.hierarchy h

/-- An index declares one thing at a path. -/
theorem FoundAt.unique {path : String} {index : Index} (h : field.FoundAt path index)
    (hfirst : first.FoundAt path index) : field = first := by
  obtain ⟨declared, hdeclared, hshape, hfield⟩ := h
  obtain ⟨other, hother, hotherShape, hfirst⟩ := hfirst
  obtain rfl := Option.some.inj (hdeclared.symm.trans hother)
  have htype := FieldShape.value.inj (hshape.symm.trans hotherShape)
  rw [hfield, hfirst, htype]

end ValueField

namespace Scope

variable {scope : Scope} {path : String}

/-- The levels around a resolved field pass the check on hierarchies. -/
theorem checkChain_of_valueField {field : ValueField} (h : scope.valueField path = .ok field) :
    Path.checkChain field.hierarchy = .ok () := by
  obtain ⟨index, -, declared, hdeclared, -, heq⟩ := exists_of_valueField h
  rw [heq]
  exact Path.checkChain_eq_ok_iff.mpr (Index.field?_hierarchy hdeclared).chain

/-- Any test of a single resolved field can be made. -/
theorem exists_test {field : ValueField} (h : scope.valueField path = .ok field)
    (test : FieldTest) : ∃ p, field.test [] test = .ok p := by
  refine ⟨{ paths := [field.path], hierarchy := field.hierarchy, test }, ?_⟩
  rw [ValueField.test_eq_ok_iff, FieldPredicate.create_eq_ok_iff]
  exact ⟨fun _ hmem => absurd hmem List.not_mem_nil, List.cons_ne_nil _ _, by simp,
    checkChain_of_valueField h, rfl⟩

/-- A searchable field whose kind supports something. -/
theorem supported_eq_ok_iff {supports : FieldKind → Bool} {e : ValueField → Error}
    {field : ValueField} :
    (do let found ← scope.valueField path
        found.checkSearchable
        if supports found.type.kind then pure found else throw (e found)) = .ok field ↔
      scope.valueField path = .ok field ∧ field.type.searchable = true ∧
        supports field.type.kind = true := by
  rw [Steps.bind_eq_ok_iff]
  simp only [Steps.check_eq_ok_iff, Steps.passIf_eq_ok_iff, ValueField.checkSearchable_eq_ok_iff]
  constructor
  · rintro ⟨found, hfound, hsearchable, hsupports, rfl⟩
    exact ⟨hfound, hsearchable, hsupports⟩
  · exact fun ⟨hfound, hsearchable, hsupports⟩ => ⟨field, hfound, hsearchable, hsupports, rfl⟩

/-- A field for tests of texts. -/
theorem textField_eq_ok_iff {field : ValueField} : scope.textField path = .ok field ↔
    scope.valueField path = .ok field ∧ field.type.searchable = true ∧
      field.type.kind.supportsText = true := supported_eq_ok_iff

/-- A field for ranges. -/
theorem rangeField_eq_ok_iff {field : ValueField} : scope.rangeField path = .ok field ↔
    scope.valueField path = .ok field ∧ field.type.searchable = true ∧
      field.type.kind.supportsRange = true := supported_eq_ok_iff

/-! ### Operations -/

/-- What can be asked of the fields of a scope. Ranges are asked for twice, before and after the
limits are known. -/
inductive Operation where
  | matchField (path : String) (value : FieldValue)
  | matchFields (paths : List String) (value : FieldValue)
  | fuzzyMatch (path text : String) (fuzziness : UInt8)
  | phrase (path text : String)
  | wildcard (path pattern : String)
  | existsField (path : String)
  | rangeField (path : String)
  | range (path : String) (limits : RangeLimits)
  | fieldSort (path : String)
  | distanceSort (path : String) (center : GeoPoint)
  | fieldProjection (path : String)

namespace Operation

/-- The fields that an operation is about. -/
def paths : Operation → List String
  | matchFields paths _ => paths
  | matchField path _ | fuzzyMatch path _ _ | phrase path _ | wildcard path _ | existsField path
  | rangeField path | range path _ | fieldSort path | distanceSort path _
  | fieldProjection path => [path]

/-- Whether a type has the indexing option that the operation depends on. -/
def allowedBy (op : Operation) (type : FieldType) : Bool :=
  match op with
  | matchField .. | matchFields .. | fuzzyMatch .. | phrase .. | wildcard .. | existsField ..
  | rangeField .. | range .. => type.searchable
  | fieldSort .. | distanceSort .. => type.sortable
  | fieldProjection .. => type.projectable

/-- Whether the operation, with the values that it is given, makes sense for fields of a kind. -/
def Suits (kind : FieldKind) : Operation → Prop
  | matchField _ value | matchFields _ value =>
      kind ≠ .geoPoint ∧ (kind.encode? value).isSome = true
  | fuzzyMatch _ _ fuzziness => kind.supportsText = true ∧ ¬maxFuzziness < fuzziness
  | phrase .. | wildcard .. => kind.supportsText = true
  | existsField _ | fieldProjection _ => True
  | rangeField _ => kind.supportsRange = true
  | range _ limits => kind.supportsRange = true ∧
      ∀ value ∈ limits.values, (kind.encode? value).isSome = true
  | fieldSort _ => kind.supportsSort = true ∧ kind ≠ .geoPoint
  | distanceSort .. => kind = .geoPoint

end Operation

/-- The scope carries the operation out. -/
def Accepts (scope : Scope) : Operation → Prop
  | .matchField path value => ∃ p, scope.matchField path value = .ok p
  | .matchFields paths value => ∃ p, scope.matchFields paths value = .ok p
  | .fuzzyMatch path text fuzziness => ∃ p, scope.fuzzyMatch path text fuzziness = .ok p
  | .phrase path text => ∃ p, scope.phrase path text = .ok p
  | .wildcard path pattern => ∃ p, scope.wildcard path pattern = .ok p
  | .existsField path => ∃ p, scope.existsField path = .ok p
  | .rangeField path => ∃ field, scope.rangeField path = .ok field
  | .range path limits => ∃ p, scope.range path limits = .ok p
  | .fieldSort path => ∃ sort, scope.fieldSort path = .ok sort
  | .distanceSort path center => ∃ sort, scope.distanceSort path center = .ok sort
  | .fieldProjection path => ∃ projection, scope.fieldProjection path = .ok projection

/-- The fields of an operation as the scope resolves them: each allows it and is of a kind that
suits it, and where there are several they are of one kind and in the same nested objects. -/
structure Serves (scope : Scope) (op : Operation) : Prop where
  paths_ne : op.paths ≠ []
  each : ∀ path ∈ op.paths, ∃ field, scope.valueField path = .ok field ∧
    op.allowedBy field.type = true ∧ op.Suits field.type.kind
  alike : ∀ path ∈ op.paths, ∀ path' ∈ op.paths, ∀ field field',
    scope.valueField path = .ok field → scope.valueField path' = .ok field' →
      field.type.kind = field'.type.kind ∧ field.hierarchy = field'.hierarchy

/-! ### When each operation is accepted -/

/-- A fuzzy match is made for a searchable text, up to the greatest fuzziness. -/
theorem exists_fuzzyMatch_iff {text : String} {fuzziness : UInt8} :
    (∃ p, scope.fuzzyMatch path text fuzziness = .ok p) ↔
      ∃ field, scope.valueField path = .ok field ∧ field.type.searchable = true ∧
        field.type.kind.supportsText = true ∧ ¬maxFuzziness < fuzziness := by
  unfold fuzzyMatch
  rw [Steps.exists_bind_eq_ok_iff]
  simp only [textField_eq_ok_iff, Steps.throwIf_eq_ok_iff, exists_and_left]
  constructor
  · rintro ⟨field, ⟨hfield, hsearchable, htext⟩, hfuzziness, -⟩
    exact ⟨field, hfield, hsearchable, htext, hfuzziness⟩
  · rintro ⟨field, hfield, hsearchable, htext, hfuzziness⟩
    exact ⟨field, ⟨hfield, hsearchable, htext⟩, hfuzziness, exists_test hfield _⟩

/-- Phrases and wildcards need nothing but a field with text. -/
theorem exists_textTest_iff {test : FieldTest} :
    (∃ p, (scope.textField path >>= fun field => field.test [] test) = .ok p) ↔
      ∃ field, scope.valueField path = .ok field ∧ field.type.searchable = true ∧
        field.type.kind.supportsText = true := by
  rw [Steps.exists_bind_eq_ok_iff]
  simp only [textField_eq_ok_iff]
  exact exists_congr fun field =>
    ⟨fun ⟨hfield, _⟩ => hfield, fun hfield => ⟨hfield, exists_test hfield.1 test⟩⟩

/-- A test whether there is a value is made for every searchable field. -/
theorem exists_existsField_iff : (∃ p, scope.existsField path = .ok p) ↔
    ∃ field, scope.valueField path = .ok field ∧ field.type.searchable = true := by
  unfold existsField
  rw [Steps.exists_bind_eq_ok_iff]
  simp only [Steps.exists_check_eq_ok_iff, ValueField.checkSearchable_eq_ok_iff]
  exact exists_congr fun field => and_congr_right fun hfield => and_iff_left (exists_test hfield _)

/-- A range is made for a searchable field with an order, between values of its kind. -/
theorem exists_range_iff {limits : RangeLimits} : (∃ p, scope.range path limits = .ok p) ↔
    ∃ field, scope.valueField path = .ok field ∧ field.type.searchable = true ∧
      field.type.kind.supportsRange = true ∧
        ∀ value ∈ limits.values, (field.type.kind.encode? value).isSome = true := by
  unfold range
  rw [Steps.exists_bind_eq_ok_iff]
  simp only [Steps.exists_bind_eq_ok_iff, rangeField_eq_ok_iff]
  constructor
  · rintro ⟨field, ⟨hfield, hsearchable, hrange⟩, ends, hends, -⟩
    exact ⟨field, hfield, hsearchable, hrange, ValueField.exists_bounds_iff.mp ⟨ends, hends⟩⟩
  · rintro ⟨field, hfield, hsearchable, hrange, hvalues⟩
    obtain ⟨⟨lower, upper⟩, hends⟩ := ValueField.exists_bounds_iff.mpr hvalues
    exact ⟨field, ⟨hfield, hsearchable, hrange⟩, (lower, upper), hends, _,
      FieldPredicate.create_eq_ok_iff.mpr
        ⟨List.cons_ne_nil _ _, by simp, checkChain_of_valueField hfield, rfl⟩⟩

/-- A sort on a field is made for a sortable one that is no geo point. -/
theorem exists_fieldSort_iff : (∃ sort, scope.fieldSort path = .ok sort) ↔
    ∃ field, scope.valueField path = .ok field ∧ field.type.sortable = true ∧
      field.type.kind.supportsSort = true ∧ field.type.kind ≠ .geoPoint := by
  unfold fieldSort
  rw [Steps.exists_bind_eq_ok_iff]
  simp only [Steps.throwIf_eq_ok_iff, Steps.check_eq_ok_iff, Steps.pure_eq_ok_iff,
    ValueField.checkSortable_eq_ok_iff, exists_and_left, exists_eq, and_true,
    Bool.not_eq_false, ne_eq]
  exact exists_congr fun field => and_congr_right fun _ => and_left_comm

/-- A sort on a distance is made for a sortable geo point. -/
theorem exists_distanceSort_iff {center : GeoPoint} :
    (∃ sort, scope.distanceSort path center = .ok sort) ↔
      ∃ field, scope.valueField path = .ok field ∧ field.type.sortable = true ∧
        field.type.kind = .geoPoint := by
  unfold distanceSort
  rw [Steps.exists_bind_eq_ok_iff]
  simp only [Steps.throwIf_eq_ok_iff, Steps.check_eq_ok_iff, Steps.pure_eq_ok_iff,
    ValueField.checkSortable_eq_ok_iff, exists_and_left, exists_eq, and_true, not_not, ne_eq]
  exact exists_congr fun field => and_congr_right fun _ => and_comm

/-- A projection is made for every projectable field. -/
theorem exists_fieldProjection_iff : (∃ projection, scope.fieldProjection path = .ok projection) ↔
    ∃ field, scope.valueField path = .ok field ∧ field.type.projectable = true := by
  unfold fieldProjection
  rw [Steps.exists_bind_eq_ok_iff]
  simp only [Steps.passIf_eq_ok_iff, exists_and_left, exists_eq, and_true]

/-- Several fields are each compared with the first one, so they are all alike. -/
theorem serves_of_matchFields {paths : List String} {value : FieldValue} {p : FieldPredicate}
    (h : scope.matchFields paths value = .ok p) : scope.Serves (.matchFields paths value) := by
  cases paths with
  | nil => simp [matchFields] at h
  | cons path paths =>
      obtain ⟨first, hfirst, h⟩ := Steps.bind_eq_ok_iff.mp h
      obtain ⟨others, hothers, h⟩ := Steps.bind_eq_ok_iff.mp h
      obtain ⟨hchecked, h⟩ := Steps.check_eq_ok_iff.mp h
      obtain ⟨json, hjson, h⟩ := Steps.bind_eq_ok_iff.mp h
      obtain ⟨hnesting, -⟩ := ValueField.test_eq_ok_iff.mp h
      have hencode := ValueField.exists_encode_iff.mp ⟨json, hjson⟩
      have hall : (path :: paths).mapM scope.valueField = .ok (first :: others) :=
        Steps.mapM_eq_ok_iff.mpr (.cons hfirst (Steps.mapM_eq_ok_iff.mp hothers))
      -- What was checked of the resolved fields, said of the paths.
      have hfields : ∀ other ∈ path :: paths, ∀ field, scope.valueField other = .ok field →
          field.type.searchable = true ∧ field.type.kind ≠ .geoPoint ∧
            field.type.kind = first.type.kind ∧ field.hierarchy = first.hierarchy := by
        intro other hother field hfield
        obtain ⟨found, hfound, hsame⟩ := Steps.exists_mem_of_mapM_eq_ok hall hother
        obtain rfl := Except.ok.inj (hfield.symm.trans hsame)
        obtain ⟨hsearchable, hpoint, hkind⟩ :=
          ValueField.checkMatched_eq_ok_iff.mp (Steps.forM_eq_ok_iff.mp hchecked field hfound)
        refine ⟨hsearchable, hpoint, hkind, ?_⟩
        rcases List.mem_cons.mp hfound with rfl | hmem
        · rfl
        · exact hnesting field hmem
      refine ⟨List.cons_ne_nil _ _, fun other hother => ?_, fun a ha b hb x y hx hy => ?_⟩
      · obtain ⟨field, -, hfield⟩ := Steps.exists_mem_of_mapM_eq_ok hall hother
        obtain ⟨hsearchable, hpoint, hkind, -⟩ := hfields other hother field hfield
        exact ⟨field, hfield, hsearchable, hpoint, hkind ▸ hencode⟩
      · obtain ⟨-, -, hxKind, hxNesting⟩ := hfields a ha x hx
        obtain ⟨-, -, hyKind, hyNesting⟩ := hfields b hb y hy
        exact ⟨hxKind.trans hyKind.symm, hxNesting.trans hyNesting.symm⟩

/-- Fields that are all alike pass the comparison with the first one. -/
theorem Serves.exists_matchFields {paths : List String} {value : FieldValue}
    (h : scope.Serves (.matchFields paths value)) :
    ∃ p, scope.matchFields paths value = .ok p := by
  cases paths with
  | nil => exact absurd rfl h.paths_ne
  | cons path paths =>
      obtain ⟨⟨first, hfirst, -, -, hencode⟩, heach⟩ := List.forall_mem_cons.mp h.each
      obtain ⟨others, hothers, -⟩ := Steps.exists_mapM_eq_ok heach
      have hall : (path :: paths).mapM scope.valueField = .ok (first :: others) :=
        Steps.mapM_eq_ok_iff.mpr (.cons hfirst (Steps.mapM_eq_ok_iff.mp hothers))
      -- Conversely what holds of the paths, said of the resolved fields.
      have hfields : ∀ field ∈ first :: others, field.type.searchable = true ∧
          field.type.kind ≠ .geoPoint ∧ field.type.kind = first.type.kind ∧
            field.hierarchy = first.hierarchy := by
        intro field hfield
        obtain ⟨other, hother, hresolved⟩ := Steps.exists_of_mem_mapM hall hfield
        obtain ⟨found, hfound, hsearchable, hpoint, -⟩ := h.each other hother
        obtain rfl := Except.ok.inj (hresolved.symm.trans hfound)
        obtain ⟨hkind, hnesting⟩ :=
          h.alike other hother path List.mem_cons_self field first hresolved hfirst
        exact ⟨hsearchable, hpoint, hkind, hnesting⟩
      obtain ⟨json, hjson⟩ := ValueField.exists_encode_iff.mpr hencode
      have hchecked : (first :: others).forM first.checkMatched = .ok () := by
        refine Steps.forM_eq_ok_iff.mpr fun field hfield => ?_
        obtain ⟨hsearchable, hpoint, hkind, -⟩ := hfields field hfield
        exact ValueField.checkMatched_eq_ok_iff.mpr ⟨hsearchable, hpoint, hkind⟩
      have htest : first.test others (.matching json none) = .ok
          { paths := first.path :: others.map ValueField.path
            hierarchy := first.hierarchy
            test := .matching json none } := by
        refine ValueField.test_eq_ok_iff.mpr
          ⟨fun other hother => (hfields other (List.mem_cons_of_mem _ hother)).2.2.2, ?_⟩
        exact FieldPredicate.create_eq_ok_iff.mpr ⟨List.cons_ne_nil _ _,
          by simp [FieldTest.isMatching], checkChain_of_valueField hfirst, rfl⟩
      exact ⟨_, Steps.bind_eq_ok_iff.mpr ⟨first, hfirst, Steps.bind_eq_ok_iff.mpr
        ⟨others, hothers, Steps.check_eq_ok_iff.mpr
          ⟨hchecked, Steps.bind_eq_ok_iff.mpr ⟨json, hjson, htest⟩⟩⟩⟩⟩

/-- A match of several fields is made if the scope serves it. -/
theorem exists_matchFields_iff {paths : List String} {value : FieldValue} :
    (∃ p, scope.matchFields paths value = .ok p) ↔ scope.Serves (.matchFields paths value) :=
  ⟨fun ⟨_, hp⟩ => serves_of_matchFields hp, fun h => h.exists_matchFields⟩

/-- A field is like itself, so an operation on one field only depends on what that field is. -/
theorem serves_iff_of_single (op : Operation) (hpaths : op.paths = [path]) :
    scope.Serves op ↔ ∃ field, scope.valueField path = .ok field ∧
      op.allowedBy field.type = true ∧ op.Suits field.type.kind := by
  constructor
  · intro h
    exact h.each path (by rw [hpaths]; exact List.mem_cons_self)
  · rintro ⟨field, hfield, hallowed, hsuits⟩
    refine ⟨by simp [hpaths], fun other hother => ?_, fun a ha b hb x y hx hy => ?_⟩
    · rw [hpaths] at hother
      rw [List.mem_singleton.mp hother]
      exact ⟨field, hfield, hallowed, hsuits⟩
    · rw [hpaths] at ha hb
      rw [List.mem_singleton.mp ha] at hx
      rw [List.mem_singleton.mp hb] at hy
      obtain rfl := Except.ok.inj (hx.symm.trans hy)
      exact ⟨rfl, rfl⟩

/-- The conditions under which an operation is accepted, all of them in one place. -/
theorem accepts_iff_serves {op : Operation} : scope.Accepts op ↔ scope.Serves op := by
  cases op with
  | matchFields paths value => exact exists_matchFields_iff
  | matchField path value =>
      rw [serves_iff_of_single (.matchField path value) rfl]
      exact exists_matchFields_iff.trans (serves_iff_of_single (.matchFields [path] value) rfl)
  | fuzzyMatch path text fuzziness =>
      rw [serves_iff_of_single (.fuzzyMatch path text fuzziness) rfl]
      exact exists_fuzzyMatch_iff
  | phrase path text =>
      rw [serves_iff_of_single (.phrase path text) rfl]
      exact exists_textTest_iff
  | wildcard path pattern =>
      rw [serves_iff_of_single (.wildcard path pattern) rfl]
      exact exists_textTest_iff
  | existsField path =>
      rw [serves_iff_of_single (.existsField path) rfl]
      exact exists_existsField_iff.trans
        (exists_congr fun field => and_congr_right fun _ => (and_iff_left trivial).symm)
  | rangeField path =>
      rw [serves_iff_of_single (.rangeField path) rfl]
      exact exists_congr fun field => rangeField_eq_ok_iff
  | range path limits =>
      rw [serves_iff_of_single (.range path limits) rfl]
      exact exists_range_iff
  | fieldSort path =>
      rw [serves_iff_of_single (.fieldSort path) rfl]
      exact exists_fieldSort_iff
  | distanceSort path center =>
      rw [serves_iff_of_single (.distanceSort path center) rfl]
      exact exists_distanceSort_iff
  | fieldProjection path =>
      rw [serves_iff_of_single (.fieldProjection path) rfl]
      exact exists_fieldProjection_iff.trans
        (exists_congr fun field => and_congr_right fun _ => (and_iff_left trivial).symm)

/-! ### The order of the indexes -/

/-- The field is what the first index that declares the path declares there. -/
def FirstDeclares (scope : Scope) (path : String) (field : ValueField) : Prop :=
  ∃ before index rest, scope.indexes = before ++ index :: rest ∧
    (∀ other ∈ before, other.Lacks path) ∧ field.FoundAt path index

/-- All indexes that declare the path allow the operation. -/
def AllowedEverywhere (scope : Scope) (op : Operation) (path : String) : Prop :=
  ∀ index ∈ scope.indexes, ∀ field : ValueField, field.FoundAt path index →
    op.allowedBy field.type = true

/-- The indexes that declare the path agree on whether the operation is allowed. -/
def AgreesOnOption (scope : Scope) (op : Operation) (path : String) : Prop :=
  ∀ a ∈ scope.indexes, ∀ b ∈ scope.indexes, ∀ field other : ValueField,
    field.FoundAt path a → other.FoundAt path b → op.allowedBy field.type = op.allowedBy other.type

/-- What resolution returns is the field of the first index that declares the path. -/
theorem firstDeclares_of_valueField {field : ValueField} (h : scope.valueField path = .ok field) :
    scope.FirstDeclares path field := by
  obtain ⟨before, index, rest, hsplit, hbefore, hfound, -⟩ := valueField_eq_ok_iff.mp h
  exact ⟨before, index, rest, hsplit, hbefore, hfound⟩

/-- If the very first index declares the path, its field is the one. -/
theorem valueField_of_head {index : Index} {rest : List Index}
    (hindexes : scope.indexes = index :: rest) {declared field : ValueField}
    (hdeclared : declared.FoundAt path index)
    (h : scope.valueField path = .ok field) : field = declared := by
  obtain ⟨before, first, after, hsplit, hbefore, hfound⟩ := firstDeclares_of_valueField h
  rw [hindexes] at hsplit
  -- No index comes before one that declares the path.
  cases before with
  | nil =>
      obtain ⟨rfl, -⟩ := List.cons.inj hsplit
      exact hfound.unique hdeclared
  | cons other before =>
      obtain ⟨rfl, -⟩ := List.cons.inj hsplit
      exact absurd hdeclared ((Index.lacks_iff.mp (hbefore _ List.mem_cons_self)).2 declared)

/-- Any index can be moved to the front. -/
theorem exists_perm_head {index : Index} (hindex : index ∈ scope.indexes) :
    ∃ (other : Scope) (rest : List Index), other.indexes.Perm scope.indexes ∧
      other.indexes = index :: rest := by
  obtain ⟨before, rest, hsplit⟩ := List.append_of_mem hindex
  exact ⟨⟨index :: (before ++ rest), List.cons_ne_nil _ _⟩, before ++ rest,
    hsplit ▸ List.perm_middle.symm, rfl⟩

section Perm

variable {other : Scope} {op : Operation}

/-- What is allowed everywhere stays accepted in any order. -/
theorem Serves.of_perm (h : scope.Serves op) (hperm : other.indexes.Perm scope.indexes)
    (hallowed : ∀ path ∈ op.paths, scope.AllowedEverywhere op path) : other.Serves op := by
  refine ⟨h.paths_ne, fun path hpath => ?_, fun a ha b hb x y hx hy => ?_⟩
  · obtain ⟨field, hfield, -, hsuits⟩ := h.each path hpath
    obtain ⟨again, hagain, htraits⟩ := exists_valueField_of_perm hperm hfield
    obtain ⟨index, hindex, hfound⟩ := exists_of_valueField hagain
    exact ⟨again, hagain, hallowed path hpath index (hperm.mem_iff.mp hindex) again hfound,
      ValueField.kind_eq_of_traits htraits ▸ hsuits⟩
  · obtain ⟨xBefore, hxBefore, hxTraits⟩ := exists_valueField_of_perm hperm.symm hx
    obtain ⟨yBefore, hyBefore, hyTraits⟩ := exists_valueField_of_perm hperm.symm hy
    obtain ⟨hkind, hnesting⟩ := h.alike a ha b hb xBefore yBefore hxBefore hyBefore
    exact ⟨(ValueField.kind_eq_of_traits hxTraits).symm.trans
        (hkind.trans (ValueField.kind_eq_of_traits hyTraits)),
      (ValueField.hierarchy_eq_of_traits hxTraits).symm.trans
        (hnesting.trans (ValueField.hierarchy_eq_of_traits hyTraits))⟩

/-- Where the options agree, the first index speaks for all of them. -/
theorem Serves.allowedEverywhere (h : scope.Serves op) {path : String} (hpath : path ∈ op.paths)
    (hagrees : scope.AgreesOnOption op path) : scope.AllowedEverywhere op path := by
  intro index hindex declared hdeclared
  obtain ⟨field, hfield, hallowed, -⟩ := h.each path hpath
  obtain ⟨first, hfirst, hfound⟩ := exists_of_valueField hfield
  rw [hagrees index hindex first hfirst declared field hdeclared hfound]
  exact hallowed

/-- An operation that is accepted in every order is allowed everywhere, for each index comes first
in some order. -/
theorem allowedEverywhere_of_forall_perm
    (h : ∀ other : Scope, other.indexes.Perm scope.indexes → other.Serves op) {path : String}
    (hpath : path ∈ op.paths) : scope.AllowedEverywhere op path := by
  intro index hindex declared hdeclared
  -- With this index first, its own option is the one that is looked at.
  obtain ⟨other, rest, hperm, hhead⟩ := exists_perm_head hindex
  obtain ⟨field, hfield, hallowed, -⟩ := (h other hperm).each path hpath
  rw [← valueField_of_head hhead hdeclared hfield]
  exact hallowed

end Perm

/-- An operation is accepted exactly if its fields serve it as they are resolved. Of the indexes
that declare a field this asks the first one for the option, and no other. All orders of the indexes
accept the operation exactly if one does and all declaring indexes have the option. So as long as
these agree on it, all of them have it when the operation is accepted, and the order does not
matter. -/
theorem capability_of_first_index (scope : Scope) (op : Operation) :
    (scope.Accepts op ↔ scope.Serves op) ∧
    (scope.Accepts op → ∀ path ∈ op.paths, ∃ field, scope.FirstDeclares path field ∧
      op.allowedBy field.type = true) ∧
    ((∀ other : Scope, other.indexes.Perm scope.indexes → other.Accepts op) ↔
      scope.Accepts op ∧ ∀ path ∈ op.paths, scope.AllowedEverywhere op path) ∧
    ((∀ path ∈ op.paths, scope.AgreesOnOption op path) →
      (scope.Accepts op → ∀ path ∈ op.paths, scope.AllowedEverywhere op path) ∧
      ∀ other : Scope, other.indexes.Perm scope.indexes →
        (other.Accepts op ↔ scope.Accepts op)) := by
  simp only [accepts_iff_serves]
  refine ⟨trivial, fun h path hpath => ?_, ⟨fun h => ?_, fun ⟨h, hallowed⟩ other hperm => ?_⟩,
    fun hagrees => ⟨fun h path hpath => ?_, fun other hperm => ⟨fun h => ?_, fun h => ?_⟩⟩⟩
  · obtain ⟨field, hfield, hallowed, -⟩ := h.each path hpath
    exact ⟨field, firstDeclares_of_valueField hfield, hallowed⟩
  · exact ⟨h scope (.refl _), fun path hpath => allowedEverywhere_of_forall_perm h hpath⟩
  · exact h.of_perm hperm hallowed
  · exact h.allowedEverywhere hpath (hagrees path hpath)
  · -- The other order agrees on the options as well.
    refine h.of_perm hperm.symm fun path hpath => h.allowedEverywhere hpath fun a ha b hb => ?_
    exact hagrees path hpath a (hperm.mem_iff.mp ha) b (hperm.mem_iff.mp hb)
  · exact h.of_perm hperm fun path hpath => h.allowedEverywhere hpath (hagrees path hpath)

/-- An index with codes that can be searched but not sorted by. -/
def plainCodes : Index :=
  ⟨"plain", [.value "code" { kind := .keyword, normalizer := some "folded" } false], by decide, rfl⟩

/-- The codes of `openCodes` as resolved. -/
def openCode : ValueField :=
  ⟨"code", { kind := .keyword, normalizer := some "folded", sortable := true }, [], false⟩

/-- The codes of `plainCodes` as resolved. -/
def plainCode : ValueField :=
  ⟨"code", { kind := .keyword, normalizer := some "folded" }, [], false⟩

/-- Two indexes that agree on searches, though not on sorts, are searched in either order. -/
theorem capability_of_first_index_plainCodes :
    let scope : Scope := ⟨[openCodes, plainCodes], by simp⟩
    let other : Scope := ⟨[plainCodes, openCodes], by simp⟩
    other.indexes.Perm scope.indexes ∧ scope.Accepts (.existsField "code") ∧
      scope.AgreesOnOption (.existsField "code") "code" ∧ other.Accepts (.existsField "code") ∧
        scope.AllowedEverywhere (.existsField "code") "code" := by
  intro scope other
  have hperm : other.indexes.Perm scope.indexes := .swap ..
  have haccepted : scope.Accepts (.existsField "code") := ⟨_, rfl⟩
  have hsearchable : ∀ index ∈ scope.indexes, ∀ field : ValueField, field.FoundAt "code" index →
      field.type.searchable = true := by
    refine List.forall_mem_cons.mpr ⟨fun field hfound => ?_,
      List.forall_mem_singleton.mpr fun field hfound => ?_⟩
    · rw [hfound.unique (show openCode.FoundAt "code" openCodes from ⟨_, rfl, rfl, rfl⟩)]
      rfl
    · rw [hfound.unique (show plainCode.FoundAt "code" plainCodes from ⟨_, rfl, rfl, rfl⟩)]
      rfl
  have hagrees : scope.AgreesOnOption (.existsField "code") "code" :=
    fun a ha b hb field again hfield hagain =>
      (hsearchable a ha field hfield).trans (hsearchable b hb again hagain).symm
  obtain ⟨-, -, -, hagreed⟩ := capability_of_first_index scope (.existsField "code")
  obtain ⟨heverywhere, horder⟩ := hagreed fun path hpath => List.mem_singleton.mp hpath ▸ hagrees
  exact ⟨hperm, haccepted, hagrees, (horder other hperm).mpr haccepted,
    heverywhere haccepted "code" List.mem_cons_self⟩

/-- The codes of `closedCodes` as resolved. -/
def closedCode : ValueField :=
  ⟨"code",
    { kind := .keyword, normalizer := some "folded", searchable := false, projectable := false },
    [], true⟩

/-- Codes that only the first of two indexes prepares for use are accepted by operations of every
sort, and refused when the indexes are swapped. -/
theorem capability_depends_on_order :
    let scope : Scope := ⟨[openCodes, closedCodes], by simp⟩
    let other : Scope := ⟨[closedCodes, openCodes], by simp⟩
    other.indexes.Perm scope.indexes ∧
      ∀ op ∈ [Operation.matchField "code" (.text "a"), .matchFields ["code"] (.text "a"),
          .fuzzyMatch "code" "a" 1, .phrase "code" "a", .wildcard "code" "a*", .existsField "code",
          .range "code" (.atLeast (.text "a")), .fieldSort "code", .fieldProjection "code"],
        scope.Accepts op ∧ ¬other.Accepts op ∧ ¬scope.AllowedEverywhere op "code" := by
  intro scope other
  refine ⟨.swap .., fun op hop => ?_⟩
  have hop : op.paths = ["code"] ∧ op.Suits .keyword := by
    revert op
    simp [Operation.paths, Operation.Suits, RangeLimits.values, FieldKind.encode?,
      FieldKind.supportsText, FieldKind.supportsRange, FieldKind.supportsSort, maxFuzziness]
  have hclosed : other.valueField "code" = .ok closedCode := rfl
  have hrefused : op.allowedBy closedCode.type = false := by cases op <;> rfl
  refine ⟨?_, fun haccepted => ?_, fun heverywhere => ?_⟩
  · rw [accepts_iff_serves, serves_iff_of_single op hop.1]
    exact ⟨openCode, rfl, by cases op <;> rfl, hop.2⟩
  · rw [accepts_iff_serves, serves_iff_of_single op hop.1] at haccepted
    obtain ⟨field, hfield, hallowed, -⟩ := haccepted
    obtain rfl := Except.ok.inj (hclosed.symm.trans hfield)
    exact absurd (hrefused.symm.trans hallowed) (by decide)
  · have hallowed := heverywhere closedCodes (List.mem_cons_of_mem _ List.mem_cons_self) closedCode
      ⟨_, rfl, rfl, rfl⟩
    exact absurd (hrefused.symm.trans hallowed) (by decide)

end Scope

end SearchDsl
