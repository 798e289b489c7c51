import SearchDsl.Proofs.Cluster.Requests
import SearchDsl.Proofs.Field.Codec
import SearchDsl.Proofs.Json.Nulls
import SearchDsl.Proofs.Scope.Capabilities
import SearchDsl.SortCriterion

/-!
# `SearchDsl.Proofs.Query.Nulls`: where the body of a search has nulls

A number that is not finite is written as null. Numbers come into a body as values of fields, as
boosts at any depth of the predicate, as stand-ins for missing values and as centers of distance
sorts. Values and stand-ins are encoded for the kind of their field, and no kind but that of points
takes a value with a number that is not finite (`FieldKind.hasNull_of_encode`). Points are neither
matched nor compared, and no stand-in is one. Nobody looks at boosts and centers.

`Query.body_hasNull_iff` puts that together. The body of a query that is assembled with the
functions of a scope has a null exactly if some boost is not finite or some center is not. There is
one exception: in the clause of a distance sort, a field with the name of one of its options is
overwritten by the option, and its center is lost, whatever it is.
-/

set_option autoImplicit false

namespace SearchDsl

/-! ### Numbers and values -/

/-- Whether one of several numbers is not finite. -/
def Binary.anyNonFinite {f : BinaryFormat} (numbers : List (Binary f)) : Bool :=
  numbers.any fun x => !x.isFinite

/-- Of two lists one has such a number if both together have. -/
theorem Binary.anyNonFinite_append {f : BinaryFormat} (numbers more : List (Binary f)) :
    anyNonFinite (numbers ++ more) = (anyNonFinite numbers || anyNonFinite more) :=
  List.any_append

/-- Such a number is one of those listed. -/
theorem Binary.anyNonFinite_iff {f : BinaryFormat} {numbers : List (Binary f)} :
    anyNonFinite numbers = true ↔ ∃ x ∈ numbers, x.isFinite = false := by
  simp [anyNonFinite]

/-- A point is written with a null exactly if one of its coordinates is not finite. -/
theorem GeoPoint.hasNull_toJson (p : GeoPoint) : p.toJson.hasNull = !p.isFinite := by
  simp [toJson, isFinite]

namespace FieldKind

/-- The encoding of a value has a null if there is a number in the value that is not finite. -/
theorem hasNull_of_encode? {kind : FieldKind} {value : FieldValue} {json : Json}
    (h : kind.encode? value = some json) : json.hasNull = !value.isFinite := by
  cases value with
  | geoPoint p =>
      obtain rfl : kind = geoPoint := by cases kind <;> simp_all [encode?]
      obtain rfl := Option.some.inj h
      exact p.hasNull_toJson
  | double x =>
      obtain rfl : kind = double := by cases kind <;> simp_all [encode?]
      obtain ⟨hfinite, hjson⟩ := Option.ite_none_right_eq_some.mp h
      obtain rfl := Option.some.inj hjson
      simp [FieldValue.isFinite, hfinite]
  | text | char | integer | long | boolean | localDate =>
      -- What is left are texts, integers and the doubles that integers round to.
      show json.hasNull = false
      cases kind <;> grind [encode?, Json.hasNull]

/-- No other kind than that of points takes a value that is not finite. -/
theorem hasNull_of_encode {kind : FieldKind} (hkind : kind ≠ geoPoint) {field : String}
    {value : FieldValue} {json : Json} (h : kind.encode field value = .ok json) :
    json.hasNull = false := by
  have hencode := encode_eq_ok_iff.mp h
  rw [hasNull_of_encode? hencode, Bool.not_eq_false']
  by_contra hfinite
  obtain ⟨⟨p, rfl⟩, -⟩ := decode?_of_not_isFinite hencode (by simpa using hfinite)
  cases kind <;> simp_all [encode?]

end FieldKind

/-! ### Field predicates -/

/-- Whether there is a null in an end of a range. -/
def Bound.hasNull : Bound → Bool
  | unbounded => false
  | included value | excluded value => value.hasNull

/-- Whether there is a null in what is tested. -/
def FieldTest.hasNull : FieldTest → Bool
  | matching value _ => value.hasNull
  | range lower upper => lower.hasNull || upper.hasNull
  | phrase .. | wildcard _ | .exists => false

/-- An end of a range has a null if its value does. -/
theorem FieldTest.any_hasNull_boundMember (included excluded : String) (bound : Bound) :
    ((boundMember included excluded bound).any fun member => member.2.hasNull) = bound.hasNull := by
  cases bound <;> simp [boundMember, Bound.hasNull]

/-- A boost is written without a look at it. -/
@[simp]
theorem any_hasNull_boost (boost : Option Single) :
    (boost.map Json.ofSingle).any Json.hasNull = Binary.anyNonFinite boost.toList := by
  cases boost <;> simp [Binary.anyNonFinite]

/-- A clause has a null from its boost or from what is tested, and from nothing else. -/
theorem FieldTest.hasNull_clause (test : FieldTest) (boost : Option Single) (path : String) :
    (test.clause boost path).hasNull
      = (Binary.anyNonFinite boost.toList || test.hasNull) := by
  cases test with
  | matching value fuzziness =>
      cases fuzziness <;> simp [clause, FieldTest.hasNull]
  | range lower upper =>
      simp [clause, FieldTest.hasNull, any_hasNull_boundMember]
  | phrase text slop =>
      by_cases hslop : slop = 0 <;> simp [clause, FieldTest.hasNull, hslop]
  | wildcard | «exists» => simp [clause, FieldTest.hasNull]

/-- The body of a field predicate has at least one clause, and all have the same boost and test. -/
theorem FieldPredicate.hasNull_body {p : FieldPredicate} (hpaths : p.paths ≠ []) :
    p.body.hasNull
      = (Binary.anyNonFinite p.boost.toList || p.test.hasNull) := by
  unfold body
  split
  · exact p.test.hasNull_clause p.boost _
  · obtain ⟨path, rest, hcons⟩ := List.exists_cons_of_ne_nil hpaths
    have hsame : (Json.hasNull ∘ p.test.clause p.boost) = fun _ =>
        Binary.anyNonFinite p.boost.toList || p.test.hasNull :=
      funext fun path => p.test.hasNull_clause p.boost path
    simp only [Json.hasNull_single, Json.hasNull, Json.membersHaveNull_eq_any, List.any_cons,
      List.any_nil, Bool.false_or, Bool.or_false, Json.itemsHaveNull_eq_any, List.any_map, hsame]
    rw [hcons, List.any_cons]
    cases Binary.anyNonFinite p.boost.toList || p.test.hasNull <;> simp

/-- A nested clause has a null if the query in it does. -/
theorem hasNull_nestedClause (path : String) (query : Json) :
    (nestedClause path query).hasNull = query.hasNull := by
  simp [nestedClause]

/-- Nested clauses bring no null in. -/
theorem hasNull_wrapNested (hierarchy : List String) (context : Option String) (query : Json) :
    (wrapNested hierarchy context query).hasNull = query.hasNull := by
  unfold wrapNested
  induction levelsBelow context hierarchy with
  | nil => rfl
  | cons level levels ih => rw [List.foldr_cons, hasNull_nestedClause, ih]

namespace ValueField

/-- The predicate of a test holds just this test. -/
theorem test_of_test {first : ValueField} {others : List ValueField} {test : FieldTest}
    {p : FieldPredicate} (h : first.test others test = .ok p) : p.test = test := by
  obtain ⟨-, hcreate⟩ := test_eq_ok_iff.mp h
  obtain ⟨-, -, -, rfl⟩ := FieldPredicate.create_eq_ok_iff.mp hcreate
  rfl

/-- The ends of a range hold encoded values. -/
theorem hasNull_of_bounds {field : ValueField} (hkind : field.type.kind ≠ .geoPoint)
    {limits : RangeLimits} {lower upper : Bound} (h : field.bounds limits = .ok (lower, upper)) :
    lower.hasNull = false ∧ upper.hasNull = false := by
  have hvalue : ∀ {value : FieldValue} {json : Json}, field.encode value = .ok json →
      json.hasNull = false := fun hencode => FieldKind.hasNull_of_encode hkind hencode
  cases limits with
  | atLeast value | greaterThan value | atMost value | lessThan value =>
      obtain ⟨json, hjson, hends⟩ := Steps.bind_eq_ok_iff.mp h
      obtain ⟨rfl, rfl⟩ := Prod.mk.inj (Steps.pure_eq_ok_iff.mp hends)
      simp [Bound.hasNull, hvalue hjson]
  | between =>
      obtain ⟨low, hlow, h⟩ := Steps.bind_eq_ok_iff.mp h
      obtain ⟨high, hhigh, hends⟩ := Steps.bind_eq_ok_iff.mp h
      obtain ⟨rfl, rfl⟩ := Prod.mk.inj (Steps.pure_eq_ok_iff.mp hends)
      exact ⟨hvalue hlow, hvalue hhigh⟩

end ValueField

namespace Scope

variable {scope : Scope}

/-- A match is tested against an encoded value, which has no null. -/
theorem hasNull_test_of_matchFields {paths : List String} {value : FieldValue} {p : FieldPredicate}
    (h : scope.matchFields paths value = .ok p) : p.test.hasNull = false := by
  cases paths with
  | nil => simp [matchFields] at h
  | cons path paths =>
      obtain ⟨first, -, h⟩ := Steps.bind_eq_ok_iff.mp h
      obtain ⟨others, -, h⟩ := Steps.bind_eq_ok_iff.mp h
      obtain ⟨hchecked, h⟩ := Steps.check_eq_ok_iff.mp h
      obtain ⟨json, hjson, htest⟩ := Steps.bind_eq_ok_iff.mp h
      -- The fields are checked against the first one, and that one against itself.
      have hfirst := Steps.forM_eq_ok_iff.mp hchecked first List.mem_cons_self
      obtain ⟨-, hpoint, -⟩ := ValueField.checkMatched_eq_ok_iff.mp hfirst
      rw [ValueField.test_of_test htest]
      exact FieldKind.hasNull_of_encode hpoint hjson

/-- The field predicates of a scope test for nothing that has a null. -/
theorem AssembledField.hasNull_test {p : FieldPredicate} (h : AssembledField scope p) :
    p.test.hasNull = false := by
  induction h with
  | matchField h => exact hasNull_test_of_matchFields h
  | matchFields h => exact hasNull_test_of_matchFields h
  | fuzzyMatch h =>
      obtain ⟨field, -, h⟩ := Steps.bind_eq_ok_iff.mp h
      rw [ValueField.test_of_test (Steps.throwIf_eq_ok_iff.mp h).2]
      rfl
  | phrase h =>
      obtain ⟨field, -, htest⟩ := Steps.bind_eq_ok_iff.mp h
      rw [ValueField.test_of_test htest]
      rfl
  | wildcard h =>
      obtain ⟨field, -, htest⟩ := Steps.bind_eq_ok_iff.mp h
      rw [ValueField.test_of_test htest]
      rfl
  | existsField h =>
      obtain ⟨field, -, h⟩ := Steps.bind_eq_ok_iff.mp h
      rw [ValueField.test_of_test (Steps.check_eq_ok_iff.mp h).2]
      rfl
  | range h =>
      obtain ⟨field, hfield, h⟩ := Steps.bind_eq_ok_iff.mp h
      obtain ⟨⟨lower, upper⟩, hends, hcreate⟩ := Steps.bind_eq_ok_iff.mp h
      obtain ⟨-, -, -, rfl⟩ := FieldPredicate.create_eq_ok_iff.mp hcreate
      obtain ⟨-, -, hrange⟩ := rangeField_eq_ok_iff.mp hfield
      -- There are no ranges of points.
      have hpoint : field.type.kind ≠ .geoPoint := by
        intro heq
        simp [heq, FieldKind.supportsRange] at hrange
      obtain ⟨hlower, hupper⟩ := ValueField.hasNull_of_bounds hpoint hends
      simp [FieldTest.hasNull, hlower, hupper]
  | withBoost boost h ih => cases boost <;> exact ih
  | @withSlop p slop h ih =>
      unfold FieldPredicate.withSlop
      split
      · rfl
      · exact ih

end Scope

/-! ### Predicates -/

namespace Predicate

mutual

/-- The boosts inside a predicate. -/
def boosts : Predicate → List Single
  | matchAll boost => boost.toList
  | ids _ => []
  | field p => p.boost.toList
  | nested _ _ inner => boosts inner
  | bool clauses _ boost => boost.toList ++ clauseBoosts clauses

/-- The boosts inside the clauses of a bool predicate. -/
def clauseBoosts : List (Occur × Predicate) → List Single
  | [] => []
  | (_, clause) :: rest => boosts clause ++ clauseBoosts rest

end

/-- The member of a group has a null if one of the clauses does. -/
theorem any_hasNull_clauseMember (occur : Occur) (clauses : List Json) :
    ((clauseMember occur clauses).any fun member => member.2.hasNull)
      = clauses.any Json.hasNull := by
  unfold clauseMember
  split
  · next hnone => rw [hnone]; rfl
  · simp

/-- A bool query has the nulls of its boost and of its clauses, whatever their occurrences. -/
theorem exists_boolQuery_hasNull (minimum : Option UInt32) (boost : Option Single)
    (built : List (Occur × Json)) :
    ∃ json, boolQuery minimum boost (built.map fun clause => (clause.1, .ok clause.2)) = .ok json ∧
      json.hasNull
        = (Binary.anyNonFinite boost.toList || built.any fun clause => clause.2.hasNull) := by
  unfold boolQuery
  simp only [clausesOf_map_ok]
  refine ⟨_, rfl, ?_⟩
  have hminimum : (minimum.map fun n => Json.int n.toNat).any Json.hasNull = false := by
    cases minimum <;> rfl
  have hperm := (filter_occur_perm built).any_eq (f := fun clause => clause.2.hasNull)
  rw [← hperm]
  simp [any_hasNull_clauseMember, hminimum, List.any_append, Function.comp_def]

/-- In a context, a predicate renders with nulls for just those of its boosts that are not
finite. -/
def BoostsDecide (context : Option String) (p : Predicate) : Prop :=
  ∀ {json : Json}, p.build context = .ok json →
    json.hasNull = Binary.anyNonFinite p.boosts

/-- Clauses that each render, and of whose nulls their boosts decide. -/
theorem exists_built_hasNull {context : Option String} {clauses : List (Occur × Predicate)}
    (hrenders : ∀ clause ∈ clauses, ∃ json, clause.2.build context = .ok json)
    (hdecide : ∀ clause ∈ clauses, BoostsDecide context clause.2) :
    ∃ built : List (Occur × Json),
      buildClauses context clauses = built.map (fun clause => (clause.1, .ok clause.2)) ∧
      (built.any fun clause => clause.2.hasNull)
        = Binary.anyNonFinite (clauseBoosts clauses) := by
  induction clauses with
  | nil => exact ⟨[], rfl, rfl⟩
  | cons clause clauses ih =>
      obtain ⟨occur, p⟩ := clause
      obtain ⟨⟨json, hjson⟩, hothers⟩ := List.forall_mem_cons.mp hrenders
      obtain ⟨hfirst, hrest⟩ := List.forall_mem_cons.mp hdecide
      obtain ⟨built, hbuilt, hnulls⟩ := ih hothers hrest
      refine ⟨(occur, json) :: built, ?_, ?_⟩
      · rw [buildClauses, hjson, hbuilt, List.map_cons]
      · rw [List.any_cons, clauseBoosts, Binary.anyNonFinite_append, hnulls, hfirst hjson]

end Predicate

namespace Scope

variable {scope : Scope}

/-- The only nulls in the query of an assembled predicate are its boosts that are not finite. -/
theorem Assembled.boostsDecide {p : Predicate} (h : Assembled scope p) :
    ∀ context : Option String, p.BoostsDecide context := by
  -- Induction on how the predicate is put together. A nested predicate changes the context, so the
  -- context is left open.
  induction h with
  | matchAll boost =>
      intro context json hbuild
      obtain rfl := Except.ok.inj hbuild
      simp [Predicate.boosts]
  | @ids values p h =>
      intro context json hbuild
      unfold Predicate.ofIds at h
      split at h
      · simp at h
      · obtain rfl := Except.ok.inj h
        obtain rfl := Except.ok.inj hbuild
        simp [Predicate.boosts, Binary.anyNonFinite]
  | @field p h =>
      intro context json hbuild
      obtain ⟨-, hwrap⟩ := Steps.check_eq_ok_iff.mp hbuild
      rw [Steps.pure_eq_ok_iff.mp hwrap, hasNull_wrapNested,
        FieldPredicate.hasNull_body h.resolves.1, h.hasNull_test, Bool.or_false, Predicate.boosts]
  | @bool clauses minimum boost h ih =>
      intro context json hbuild
      -- The bool query renders, so all of its clauses do.
      have hrenders : ∀ clause ∈ clauses, ∃ json, clause.2.build context = .ok json := by
        intro clause hclause
        exact Predicate.exists_of_boolQuery_eq_ok hbuild
          (Predicate.buildClauses_eq_map context clauses ▸ List.mem_map_of_mem hclause)
      obtain ⟨built, hbuilt, hnulls⟩ :=
        Predicate.exists_built_hasNull hrenders fun clause hclause => ih clause hclause context
      obtain ⟨query, hquery, hquerynulls⟩ := Predicate.exists_boolQuery_hasNull minimum boost built
      rw [Predicate.build, hbuilt, hquery] at hbuild
      obtain rfl := Except.ok.inj hbuild
      rw [hquerynulls, hnulls, Predicate.boosts, Binary.anyNonFinite_append]
  | @nested path inner p hinner h ih =>
      intro context json hbuild
      obtain ⟨object, -, -, hcreate⟩ := nested_eq_ok_iff.mp h
      obtain ⟨-, -, -, rfl⟩ := Predicate.createNested_eq_ok_iff.mp hcreate
      obtain ⟨-, hbuild⟩ := Steps.check_eq_ok_iff.mp hbuild
      obtain ⟨query, hquery, hwrap⟩ := Steps.bind_eq_ok_iff.mp hbuild
      rw [Steps.pure_eq_ok_iff.mp hwrap, hasNull_wrapNested, hasNull_nestedClause, ih _ hquery,
        Predicate.boosts]

/-! ### Sorts -/

/-- The field sorts that a scope makes, in any direction and with any place for missing values. -/
inductive AssembledFieldSort (scope : Scope) : FieldSort → Prop
  | fieldSort {path : String} {sort : FieldSort} (h : scope.fieldSort path = .ok sort) :
      AssembledFieldSort scope sort
  | directed {sort : FieldSort} (direction : SortDirection) (h : AssembledFieldSort scope sort) :
      AssembledFieldSort scope { sort with direction }
  | missingFirst {sort : FieldSort} (h : AssembledFieldSort scope sort) :
      AssembledFieldSort scope { sort with missing := .first }
  | missingLast {sort : FieldSort} (h : AssembledFieldSort scope sort) :
      AssembledFieldSort scope { sort with missing := .last }
  | missingAs {sort result : FieldSort} {value : FieldValue} (h : AssembledFieldSort scope sort)
      (hvalue : sort.missingAs value = .ok result) : AssembledFieldSort scope result

/-- The sort criteria that are assembled with the functions of a scope. -/
inductive AssembledSort (scope : Scope) : SortCriterion → Prop
  | score (direction : SortDirection) : AssembledSort scope (.score direction)
  | indexOrder : AssembledSort scope .indexOrder
  | field {sort : FieldSort} (h : AssembledFieldSort scope sort) : AssembledSort scope (.field sort)
  | distance {path : String} {center : GeoPoint} {sort : DistanceSort} (direction : SortDirection)
      (h : scope.distanceSort path center = .ok sort) :
      AssembledSort scope (.distance { sort with direction })

/-- A field sort is not on points, and its stand-in has no null. -/
theorem AssembledFieldSort.hasNull_missing {sort : FieldSort} (h : AssembledFieldSort scope sort) :
    sort.kind ≠ .geoPoint ∧ sort.missing.toJson.hasNull = false := by
  induction h with
  | fieldSort h =>
      obtain ⟨field, -, h⟩ := Steps.bind_eq_ok_iff.mp h
      obtain ⟨-, h⟩ := Steps.throwIf_eq_ok_iff.mp h
      obtain ⟨-, h⟩ := Steps.check_eq_ok_iff.mp h
      obtain ⟨hpoint, h⟩ := Steps.throwIf_eq_ok_iff.mp h
      obtain rfl := Steps.pure_eq_ok_iff.mp h
      exact ⟨hpoint, rfl⟩
  | directed direction h ih => exact ih
  | missingFirst h ih => exact ⟨ih.1, rfl⟩
  | missingLast h ih => exact ⟨ih.1, rfl⟩
  | missingAs h hvalue ih =>
      obtain ⟨json, hjson, hresult⟩ := Steps.bind_eq_ok_iff.mp hvalue
      obtain rfl := Steps.pure_eq_ok_iff.mp hresult
      exact ⟨ih.1, FieldKind.hasNull_of_encode ih.1 hjson⟩

/-- A field below a nested object has a dot in its path. -/
theorem dot_mem_of_valueField {path : String} {field : ValueField}
    (h : scope.valueField path = .ok field) (hnested : field.hierarchy ≠ []) :
    '.' ∈ path.toList := by
  obtain ⟨level, hlevel⟩ := List.exists_mem_of_ne_nil _ hnested
  obtain ⟨index, -, declared, hdeclared, hshape, hfield⟩ := exists_of_valueField h
  rw [hfield] at hlevel
  obtain ⟨inner, hinner, hplace⟩ := (Index.field?_hierarchy hdeclared).above level hlevel
  obtain rfl := Option.some.inj hinner
  rcases hplace with rfl | hbelow
  · -- The level is an object, and the field is not.
    obtain ⟨object, hobject, hobjectShape, -⟩ := Index.exists_enclosing hdeclared hlevel
    obtain rfl := Option.some.inj (hdeclared.symm.trans hobject)
    simp [hshape] at hobjectShape
  · obtain ⟨rest, -, hpath⟩ := (Path.isBelow_iff path level).mp hbelow
    simp [hpath]

end Scope

namespace Dialect

/-- A chain of nested paths has no null. -/
theorem hasNull_nestedChain (hierarchy : List String) :
    (nestedChain hierarchy).any Json.hasNull = false := by
  induction hierarchy with
  | nil => rfl
  | cons path inner ih => simp [nestedChain, ih]

/-- The nested option of a sort brings no null in. -/
theorem hasNull_of_mem_nestedSort {dialect : Dialect} {hierarchy : List String}
    {member : String × Json} (h : member ∈ dialect.nestedSort hierarchy) :
    member.2.hasNull = false := by
  have hany : ((dialect.nestedSort hierarchy).any fun member => member.2.hasNull) = false := by
    cases dialect with
    | v56 => cases hlast : hierarchy.getLast? <;> simp [nestedSort, hlast]
    | v60 | v63 | v7 => simp [nestedSort, hasNull_nestedChain]
  simpa using List.any_eq_false.mp hany member h

/-- The nested option has one of two names, and it is there for nested fields only. -/
theorem key_of_mem_nestedSort {dialect : Dialect} {hierarchy : List String}
    {member : String × Json} (h : member ∈ dialect.nestedSort hierarchy) :
    hierarchy ≠ [] ∧ (member.1 = "nested_path" ∨ member.1 = "nested") := by
  cases hierarchy with
  | nil => cases dialect <;> simp [nestedSort, nestedChain, Json.member?] at h
  | cons level inner =>
      refine ⟨List.cons_ne_nil _ _, ?_⟩
      cases dialect with
      | v56 =>
          left
          cases hlast : (level :: inner).getLast? <;> simp_all [nestedSort, Json.member?]
      | v60 | v63 | v7 =>
          right
          simp [nestedSort, nestedChain, Json.member?] at h
          simp [h]

end Dialect

namespace SortCriterion

/-- A sort on a field has a null only from the value that stands in for missing ones. -/
theorem hasNull_field (dialect : Dialect) (sort : FieldSort) :
    ((field sort).toJson dialect).hasNull = sort.missing.toJson.hasNull := by
  have hnested : ((dialect.nestedSort sort.hierarchy).any fun member => member.2.hasNull) = false :=
    List.any_eq_false.mpr fun member hmember => by
      simp [Dialect.hasNull_of_mem_nestedSort hmember]
  simp [toJson, hnested]

end SortCriterion

namespace DistanceSort

variable {dialect : Dialect} {sort : DistanceSort} {member : String × Json}

/-- What stands beside the center in the clause of a distance sort. -/
def options (dialect : Dialect) (sort : DistanceSort) : List (String × Json) :=
  [("order", .string sort.direction.name), ("unit", .string "m")]
    ++ dialect.nestedSort sort.hierarchy

/-- The options are the direction, the unit and the nesting. -/
theorem mem_options_iff : member ∈ sort.options dialect ↔
    member = ("order", .string sort.direction.name) ∨ member = ("unit", .string "m") ∨
      member ∈ dialect.nestedSort sort.hierarchy := by
  simp [options]

/-- None of the options has a null. -/
theorem hasNull_of_mem_options (h : member ∈ sort.options dialect) : member.2.hasNull = false := by
  rcases mem_options_iff.mp h with rfl | rfl | hnested
  · rfl
  · rfl
  · exact Dialect.hasNull_of_mem_nestedSort hnested

/-- The members of the clause: the center is set first, the options after it. -/
def members (dialect : Dialect) (sort : DistanceSort) : List (String × Json) :=
  Json.collect ((sort.path, sort.center.toJson) :: sort.options dialect)

/-- A distance sort has a null if one of its members does. -/
theorem hasNull_toJson_iff : ((SortCriterion.distance sort).toJson dialect).hasNull = true ↔
    ∃ member ∈ sort.members dialect, member.2.hasNull = true := by
  show (Json.single "_geo_distance" (.object (sort.members dialect))).hasNull = true ↔ _
  simp

/-- If the field has the name of an option, the option is set over the center. -/
theorem collect_of_overwritten (hpath : sort.path = "order" ∨ sort.path = "unit") :
    Json.collect [(sort.path, sort.center.toJson), ("order", .string sort.direction.name),
        ("unit", .string "m")]
      = [("order", .string sort.direction.name), ("unit", .string "m")] := by
  have hless : "order" < "unit" := by decide
  simp only [Json.collect, List.foldl_cons, List.foldl_nil]
  rcases hpath with hpath | hpath
  · rw [hpath, Json.put, Json.put_cons_self, Json.put_cons_of_gt hless, Json.put]
  · rw [hpath, Json.put, Json.put_cons_of_lt hless, Json.put_cons_of_gt hless,
      Json.put_cons_self]

/-- So nothing but options is left. -/
theorem mem_options_of_overwritten (hpath : sort.path = "order" ∨ sort.path = "unit")
    (h : member ∈ sort.members dialect) : member ∈ sort.options dialect := by
  -- The nested option comes last and finds nothing but the two others.
  have hnested : member ∈ (dialect.nestedSort sort.hierarchy).foldl
      (fun done member => Json.put member.1 member.2 done)
      (Json.collect [(sort.path, sort.center.toJson), ("order", .string sort.direction.name),
        ("unit", .string "m")]) := h
  rw [collect_of_overwritten hpath] at hnested
  exact List.mem_append.mpr (Json.mem_of_mem_foldl_put hnested)

/-- A center that is not finite is seen in the clause, unless an option has the name of the
field. -/
theorem hasNull_toJson (hnested : ∀ member ∈ dialect.nestedSort sort.hierarchy,
      sort.path ≠ member.1) :
    ((SortCriterion.distance sort).toJson dialect).hasNull = true ↔
      sort.center.isFinite = false ∧ sort.path ≠ "order" ∧ sort.path ≠ "unit" := by
  rw [hasNull_toJson_iff]
  constructor
  · rintro ⟨member, hmember, hnull⟩
    have hnot : member ∉ sort.options dialect := by
      intro hoption
      simp [hasNull_of_mem_options hoption] at hnull
    have hplace : ¬(sort.path = "order" ∨ sort.path = "unit") := fun hpath =>
      hnot (mem_options_of_overwritten hpath hmember)
    refine ⟨?_, not_or.mp hplace⟩
    rcases List.mem_cons.mp (Json.mem_of_mem_collect hmember) with rfl | hoption
    · simpa [GeoPoint.hasNull_toJson] using hnull
    · exact absurd hoption hnot
  · rintro ⟨hcenter, horder, hunit⟩
    refine ⟨(sort.path, sort.center.toJson), Json.mem_collect_cons ?_, ?_⟩
    · intro other hother
      rcases mem_options_iff.mp hother with rfl | rfl | hmember
      · exact horder
      · exact hunit
      · exact hnested other hmember
    · show sort.center.toJson.hasNull = true
      rw [GeoPoint.hasNull_toJson, hcenter]
      rfl

end DistanceSort

namespace Scope

variable {scope : Scope}

/-- A scope makes a distance sort of a field that it resolves. -/
theorem distanceSort_eq_ok {path : String} {center : GeoPoint} {sort : DistanceSort}
    (h : scope.distanceSort path center = .ok sort) :
    ∃ field, scope.valueField path = .ok field ∧
      sort = { path, center, hierarchy := field.hierarchy } := by
  obtain ⟨field, hfield, h⟩ := Steps.bind_eq_ok_iff.mp h
  obtain ⟨-, h⟩ := Steps.throwIf_eq_ok_iff.mp h
  obtain ⟨-, h⟩ := Steps.check_eq_ok_iff.mp h
  obtain rfl := Steps.pure_eq_ok_iff.mp h
  exact ⟨field, hfield, by rw [path_of_valueField hfield]⟩

/-- The clause of an assembled sort has a null just if it is a distance sort whose center is not
finite and stays in place. -/
theorem AssembledSort.hasNull_toJson {sort : SortCriterion} (h : AssembledSort scope sort)
    (dialect : Dialect) : (sort.toJson dialect).hasNull = true ↔
      ∃ distance, sort = .distance distance ∧ distance.center.isFinite = false ∧
        distance.path ≠ "order" ∧ distance.path ≠ "unit" := by
  cases h with
  | score direction => simp [SortCriterion.toJson]
  | indexOrder => simp [SortCriterion.toJson]
  | field h => simp [SortCriterion.hasNull_field, h.hasNull_missing.2]
  | @distance path center sort direction h =>
      obtain ⟨field, hfield, rfl⟩ := distanceSort_eq_ok h
      rw [DistanceSort.hasNull_toJson]
      · simp
      · -- The nested option goes with a dot in the path, and has none in its name.
        intro member hmember
        obtain ⟨hne, hkey⟩ := Dialect.key_of_mem_nestedSort hmember
        have hdot := dot_mem_of_valueField hfield hne
        intro hpath
        rw [show path = member.1 from hpath] at hdot
        rcases hkey with hkey | hkey <;> simp [hkey] at hdot

end Scope

/-! ### Bodies -/

namespace Query

/-- What is asked for of the documents is said without a null. -/
theorem any_hasNull_sourceFilter (projections : List Projection) :
    (Projection.sourceFilter projections).any Json.hasNull = false := by
  unfold Projection.sourceFilter
  split
  · rfl
  · split <;> simp

/-- A body can have nulls in the query clause and in the sorts, and nowhere else. -/
theorem hasNull_of_body {query : Query} {dialect : Dialect} {config : ClusterConfig}
    {offset : UInt64} {limit : Option UInt64} {body : Json}
    (h : query.body dialect config offset limit = .ok body) :
    ∃ clause, query.clause = .ok clause ∧
      body.hasNull
        = (clause.hasNull || query.sorts.any fun sort => (sort.toJson dialect).hasNull) := by
  unfold Query.body at h
  obtain ⟨-, h⟩ := Steps.throwIf_eq_ok_iff.mp h
  obtain ⟨clause, hclause, h⟩ := Steps.bind_eq_ok_iff.mp h
  obtain rfl := Steps.pure_eq_ok_iff.mp h
  refine ⟨clause, hclause, ?_⟩
  have hsorts : (if query.sorts.isEmpty then none else
      some (Json.array (query.sorts.map fun sort => sort.toJson dialect))).any Json.hasNull
        = query.sorts.any fun sort => (sort.toJson dialect).hasNull := by
    cases query.sorts <;> simp [Function.comp_def]
  have hscores : (if query.tracksScores then some (Json.bool true) else none).any Json.hasNull
      = false := by
    cases query.tracksScores <;> rfl
  have hhits : (if dialect.tracksTotalHits then some (Json.bool config.trackTotalHits)
      else none).any Json.hasNull = false := by
    cases dialect.tracksTotalHits <;> rfl
  simp only [Json.hasNull, Json.membersHaveNull_eq_any, List.any_append, List.any_cons,
    List.any_nil, Json.any_hasNull_member?, any_hasNull_sourceFilter, hsorts, hscores, hhits,
    Bool.false_or, Bool.or_false]

/-- The body of a query that is assembled with the functions of a scope has a null exactly if one of
the boosts in its predicate is not finite, or a coordinate of a center that its distance sorts have
and that no option of the sort is set over. No other number that is not finite reaches a body. -/
theorem body_hasNull_iff {scope : Scope} {predicate : Option Predicate}
    (hpredicate : ∀ p ∈ predicate, scope.Assembled p) {sorts : List SortCriterion}
    (hsorts : ∀ sort ∈ sorts, scope.AssembledSort sort) {projections : List Projection}
    {routingKeys : List String} {query : Query}
    (hquery : create scope predicate sorts projections routingKeys = .ok query)
    {dialect : Dialect} {config : ClusterConfig} {offset : UInt64} {limit : Option UInt64}
    {body : Json} (hbody : query.body dialect config offset limit = .ok body) :
    body.hasNull = true ↔
      (∃ p ∈ predicate, ∃ boost ∈ p.boosts, boost.isFinite = false) ∨
      ∃ sort, .distance sort ∈ sorts ∧ sort.center.isFinite = false ∧
        sort.path ≠ "order" ∧ sort.path ≠ "unit" := by
  obtain rfl := Except.ok.inj ((create_eq_ok ..).symm.trans hquery)
  obtain ⟨clause, hclause, hnulls⟩ := hasNull_of_body hbody
  have hboosts : clause.hasNull = true ↔
      ∃ p ∈ predicate, ∃ boost ∈ p.boosts, boost.isFinite = false := by
    cases predicate with
    | none =>
        -- Without a predicate the clause matches everything, without a boost.
        have hmatchAll : scope.Assembled (.matchAll none) := .matchAll none
        rw [hmatchAll.boostsDecide none hclause]
        simp [Predicate.boosts, Binary.anyNonFinite]
    | some p =>
        rw [(hpredicate p rfl).boostsDecide none hclause, Binary.anyNonFinite_iff]
        simp
  have hcenters : (sorts.any fun sort => (sort.toJson dialect).hasNull) = true ↔
      ∃ sort, .distance sort ∈ sorts ∧ sort.center.isFinite = false ∧
        sort.path ≠ "order" ∧ sort.path ≠ "unit" := by
    rw [List.any_eq_true]
    constructor
    · rintro ⟨sort, hsort, hnull⟩
      obtain ⟨distance, rfl, hcenter⟩ := ((hsorts sort hsort).hasNull_toJson dialect).mp hnull
      exact ⟨distance, hsort, hcenter⟩
    · rintro ⟨distance, hsort, hcenter⟩
      exact ⟨_, hsort, ((hsorts _ hsort).hasNull_toJson dialect).mpr ⟨distance, rfl, hcenter⟩⟩
  rw [hnulls, Bool.or_eq_true, hboosts, hcenters]

/-- An index of places that are visited. -/
def places : Scope :=
  let fields : List Definition := [
    .value "at" { kind := .geoPoint, sortable := true } false,
    .object "visits" .nested false [.value "rank" { kind := .double, sortable := true } false]]
  .single ⟨"places", fields, by decide, rfl⟩

/-- The visits with some rank, with a boost of their own. -/
def rankedVisits : FieldPredicate :=
  { paths := ["visits.rank"], hierarchy := ["visits"], test := .exists,
    boost := some (.ofInt .binary32 2) }

/-- A boost inside a nested predicate that is not finite, and a center that is. -/
theorem body_hasNull_iff_places :
    let predicate := Predicate.bool [(.must, .field rankedVisits),
      (.should, .nested "visits" [] (.matchAll (some (.nan .binary32 false))))] none none
    let center : GeoPoint := ⟨.zero .binary64 false, .ofInt .binary64 90⟩
    let sort : DistanceSort := { path := "at", center, hierarchy := [] }
    ∃ query body, create places (some predicate) [.distance sort] [.source] [] = .ok query ∧
      query.body .v7 {} 0 none = .ok body ∧ (body.hasNull = true ↔
        (∃ p ∈ some predicate, ∃ boost ∈ p.boosts, boost.isFinite = false) ∨
        ∃ sort', .distance sort' ∈ [SortCriterion.distance sort] ∧ sort'.center.isFinite = false ∧
          sort'.path ≠ "order" ∧ sort'.path ≠ "unit") := by
  intro predicate center sort
  have hranked : places.Assembled (.field rankedVisits) :=
    .field (.withBoost (some (.ofInt .binary32 2)) (.existsField
      (show places.existsField "visits.rank" = .ok { rankedVisits with boost := none } from rfl)))
  have hnested : places.Assembled (.nested "visits" [] (.matchAll (some (.nan .binary32 false)))) :=
    .nested (.matchAll _) (show places.nested "visits" _ = .ok _ from rfl)
  have hpredicate : ∀ p ∈ some predicate, places.Assembled p := by
    rintro p ⟨⟩
    exact .bool none none (by simpa using ⟨hranked, hnested⟩)
  have hsorts : ∀ criterion ∈ [SortCriterion.distance sort], places.AssembledSort criterion := by
    intro criterion hcriterion
    rw [List.mem_singleton.mp hcriterion]
    exact .distance .ascending (show places.distanceSort "at" center = .ok sort from rfl)
  obtain ⟨query, body, hquery, hbody⟩ : ∃ query body,
      create places (some predicate) [.distance sort] [.source] [] = .ok query ∧
        query.body .v7 {} 0 none = .ok body := ⟨_, _, rfl, rfl⟩
  exact ⟨query, body, hquery, hbody, body_hasNull_iff hpredicate hsorts hquery hbody⟩

/-- All documents match, with a boost that is not a number. The boost becomes a null in the body. -/
theorem body_hasNull_of_boost :
    ∃ p query body, places.Assembled p ∧ create places (some p) [] [.source] [] = .ok query ∧
      query.body .v7 {} 0 none = .ok body ∧ body.hasNull = true :=
  ⟨.matchAll (some (.nan .binary32 false)), _, _, .matchAll _, rfl, rfl, rfl⟩

end Query

end SearchDsl
