import SearchDsl.Proofs.Field.Codec
import SearchDsl.Proofs.Scope.Capabilities

/-!
# `SearchDsl.Proofs.Scope.Matching`: matching several fields at once

Several fields are compared with the first of them, one after the other and in more than one pass.
What comes of that does not single out any field: they have to be searchable, of one kind that takes
the value, and in the same nested objects (`Scope.Alike`). `Scope.matchFields_eq_ok_iff` says that
this is all it takes, and what the predicate is then: it has the paths as they were given, and
nothing else in it depends on their order. The checks of `FieldPredicate.create` come last and find
nothing any more, for the nested objects around a declared field lie inside each other.

The query has one clause for each path, under a bool clause if there are several (`anyOf`). A clause
depends on its own path only, so clauses change places as the paths do.
-/

set_option autoImplicit false

namespace SearchDsl

/-! ### The query of several fields -/

/-- A query that is met where one of the clauses is. A single clause stands for itself. -/
def anyOf : List Json → Json
  | [clause] => clause
  | clauses =>
      .single "bool" (.object [("minimum_should_match", .int 1), ("should", .array clauses)])

namespace FieldPredicate

/-- A field predicate has a clause for each of its paths. -/
theorem body_eq_anyOf (p : FieldPredicate) :
    p.body = anyOf (p.paths.map (p.test.clause p.boost)) := by
  unfold body
  split
  · rename_i path hpaths
    rw [hpaths]
    rfl
  · rename_i hseveral
    cases hpaths : p.paths with
    | nil => rfl
    | cons path others =>
        cases others with
        | nil => exact absurd hpaths (hseveral path)
        | cons other others => rfl

/-- At the root a field predicate brings all its nested clauses. -/
theorem build_none (p : FieldPredicate) :
    p.build none = .ok (p.hierarchy.foldr nestedClause
      (anyOf (p.paths.map (p.test.clause p.boost)))) := by
  show Except.ok (wrapNested p.hierarchy none p.body) = _
  rw [wrapNested_none, body_eq_anyOf]

end FieldPredicate

namespace Scope

variable {scope : Scope} {paths other : List String} {value : FieldValue} {kind : FieldKind}
  {hierarchy : List String}

/-! ### Fields that can be matched together -/

/-- The paths lead to searchable fields of one kind in the same nested objects, and there is at
least one. -/
structure Alike (scope : Scope) (paths : List String) (kind : FieldKind)
    (hierarchy : List String) : Prop where
  paths_ne : paths ≠ []
  each : ∀ path ∈ paths, ∃ field, scope.valueField path = .ok field ∧
    field.type.searchable = true ∧ field.type.kind = kind ∧ field.hierarchy = hierarchy

/-- The order of the paths does not matter, nor does how often they are there. -/
theorem Alike.of_mem_iff (h : scope.Alike paths kind hierarchy)
    (hmem : ∀ path, path ∈ other ↔ path ∈ paths) : scope.Alike other kind hierarchy := by
  obtain ⟨path, hpath⟩ := List.exists_mem_of_ne_nil paths h.paths_ne
  exact ⟨List.ne_nil_of_mem ((hmem path).mpr hpath),
    fun path hpath => h.each path ((hmem path).mp hpath)⟩

/-- A path leads to one field, so there is one kind and one hierarchy. -/
theorem Alike.unique {kind' : FieldKind} {hierarchy' : List String}
    (h : scope.Alike paths kind hierarchy) (h' : scope.Alike paths kind' hierarchy') :
    kind = kind' ∧ hierarchy = hierarchy' := by
  obtain ⟨path, hpath⟩ := List.exists_mem_of_ne_nil paths h.paths_ne
  obtain ⟨field, hfield, -, hkind, hhierarchy⟩ := h.each path hpath
  obtain ⟨field', hfield', -, hkind', hhierarchy'⟩ := h'.each path hpath
  obtain rfl := Except.ok.inj (hfield.symm.trans hfield')
  exact ⟨hkind.symm.trans hkind', hhierarchy.symm.trans hhierarchy'⟩

/-- The predicate that matches them passes the checks of its own. -/
theorem Alike.create_eq_ok (h : scope.Alike paths kind hierarchy) {test : FieldTest}
    (htest : test.isMatching = true) :
    FieldPredicate.create paths hierarchy test = .ok { paths, hierarchy, test } := by
  obtain ⟨path, hpath⟩ := List.exists_mem_of_ne_nil paths h.paths_ne
  obtain ⟨field, hfield, -, -, rfl⟩ := h.each path hpath
  exact FieldPredicate.create_eq_ok_iff.mpr
    ⟨h.paths_ne, by simp [htest], checkChain_of_valueField hfield, rfl⟩

/-- What serves a match of several fields is what makes them alike. -/
theorem serves_matchFields_iff : scope.Serves (.matchFields paths value) ↔
    ∃ kind hierarchy, scope.Alike paths kind hierarchy ∧ kind ≠ .geoPoint ∧
      (kind.encode? value).isSome = true := by
  constructor
  · intro h
    obtain ⟨path, hpath⟩ := List.exists_mem_of_ne_nil paths h.paths_ne
    obtain ⟨first, hfirst, -, hpoint, hencode⟩ := h.each path hpath
    refine ⟨first.type.kind, first.hierarchy, ⟨h.paths_ne, fun other hother => ?_⟩, hpoint, hencode⟩
    obtain ⟨field, hfield, hsearchable, -⟩ := h.each other hother
    exact ⟨field, hfield, hsearchable, h.alike other hother path hpath field first hfield hfirst⟩
  · rintro ⟨kind, hierarchy, halike, hpoint, hencode⟩
    refine ⟨halike.paths_ne, fun path hpath => ?_, fun a ha b hb x y hx hy => ?_⟩
    · obtain ⟨field, hfield, hsearchable, rfl, -⟩ := halike.each path hpath
      exact ⟨field, hfield, hsearchable, hpoint, hencode⟩
    · obtain ⟨field, hfield, -, hkind, hnesting⟩ := halike.each a ha
      obtain ⟨field', hfield', -, hkind', hnesting'⟩ := halike.each b hb
      obtain rfl := Except.ok.inj (hx.symm.trans hfield)
      obtain rfl := Except.ok.inj (hy.symm.trans hfield')
      exact ⟨hkind.trans hkind'.symm, hnesting.trans hnesting'.symm⟩

/-- The fields of a predicate are those of its paths, so it has the paths as they were given. -/
theorem paths_of_valueFields {fields : List ValueField}
    (h : paths.mapM scope.valueField = .ok fields) : fields.map ValueField.path = paths := by
  have hall := Steps.mapM_eq_ok_iff.mp h
  clear h
  induction hall with
  | nil => rfl
  | cons hfield _ ih => rw [List.map_cons, ih, path_of_valueField hfield]

/-- What a match of several fields is made of. -/
theorem exists_of_matchFields {p : FieldPredicate} (h : scope.matchFields paths value = .ok p) :
    ∃ kind hierarchy json, scope.Alike paths kind hierarchy ∧ kind ≠ .geoPoint ∧
      kind.encode? value = some json ∧ p = { paths, hierarchy, test := .matching json none } := by
  obtain ⟨kind, hierarchy, halike, hpoint, -⟩ := serves_matchFields_iff.mp (serves_of_matchFields h)
  cases paths with
  | nil => exact absurd rfl halike.paths_ne
  | cons path paths =>
      obtain ⟨first, hfirst, h⟩ := Steps.bind_eq_ok_iff.mp h
      obtain ⟨others, hothers, h⟩ := Steps.bind_eq_ok_iff.mp h
      obtain ⟨-, h⟩ := Steps.check_eq_ok_iff.mp h
      obtain ⟨json, hjson, h⟩ := Steps.bind_eq_ok_iff.mp h
      obtain ⟨-, hcreate⟩ := ValueField.test_eq_ok_iff.mp h
      obtain ⟨-, -, -, rfl⟩ := FieldPredicate.create_eq_ok_iff.mp hcreate
      -- The kind and the hierarchy that are used are those of the first field.
      obtain ⟨field, hfield, -, rfl, rfl⟩ := halike.each path List.mem_cons_self
      obtain rfl := Except.ok.inj (hfirst.symm.trans hfield)
      refine ⟨_, _, json, halike, hpoint, FieldKind.encode_eq_ok_iff.mp hjson, ?_⟩
      rw [path_of_valueField hfirst, paths_of_valueFields hothers]

/-- A match of several fields is determined by their kind, their nested objects and the value. -/
theorem matchFields_eq_ok_iff {p : FieldPredicate} : scope.matchFields paths value = .ok p ↔
    ∃ kind hierarchy json, scope.Alike paths kind hierarchy ∧ kind ≠ .geoPoint ∧
      kind.encode? value = some json ∧ p = { paths, hierarchy, test := .matching json none } := by
  refine ⟨exists_of_matchFields, ?_⟩
  rintro ⟨kind, hierarchy, json, halike, hpoint, hjson, rfl⟩
  obtain ⟨p, hp⟩ := exists_matchFields_iff.mpr (serves_matchFields_iff.mpr
    ⟨kind, hierarchy, halike, hpoint, Option.isSome_of_eq_some hjson⟩)
  obtain ⟨kind', hierarchy', json', halike', -, hjson', rfl⟩ := exists_of_matchFields hp
  obtain ⟨rfl, rfl⟩ := halike.unique halike'
  obtain rfl := Option.some.inj (hjson.symm.trans hjson')
  exact hp

/-- A match of several fields is made exactly if they are alike, of a kind other than points, and
take the value. -/
theorem exists_matchFields_iff_alike : (∃ p, scope.matchFields paths value = .ok p) ↔
    ∃ kind hierarchy, scope.Alike paths kind hierarchy ∧ kind ≠ .geoPoint ∧
      (kind.encode? value).isSome = true :=
  exists_matchFields_iff.trans serves_matchFields_iff

/-- A value is matched with several fields exactly if they are searchable, of one kind that takes it
and is not that of points, and in the same nested objects. The checks that come with the predicate
refuse nothing more. So the order of the paths does not decide about success. It decides about the
order of the clauses alone: whatever the order, the query has the same nested clauses around the
clauses of the paths, and these are the same for each path. -/
theorem matchFields_symmetric (scope : Scope) (paths : List String) (value : FieldValue) :
    ((∃ p, scope.matchFields paths value = .ok p) ↔
      ∃ kind hierarchy, scope.Alike paths kind hierarchy ∧ kind ≠ .geoPoint ∧
        (kind.encode? value).isSome = true) ∧
    (∀ kind hierarchy json, scope.Alike paths kind hierarchy →
      ∃ p, FieldPredicate.create paths hierarchy (.matching json none) = .ok p) ∧
    ∀ other : List String, other.Perm paths →
      ((∃ q, scope.matchFields other value = .ok q) ↔
        ∃ p, scope.matchFields paths value = .ok p) ∧
      ∀ p q, scope.matchFields paths value = .ok p → scope.matchFields other value = .ok q →
        ∃ (hierarchy : List String) (json : Json),
          p.build none = .ok (hierarchy.foldr nestedClause
            (anyOf (paths.map ((FieldTest.matching json none).clause none)))) ∧
          q.build none = .ok (hierarchy.foldr nestedClause
            (anyOf (other.map ((FieldTest.matching json none).clause none)))) := by
  refine ⟨exists_matchFields_iff_alike, fun kind hierarchy json halike => ?_,
    fun other hperm => ⟨?_, fun p q hp hq => ?_⟩⟩
  · exact ⟨_, halike.create_eq_ok rfl⟩
  · rw [exists_matchFields_iff_alike, exists_matchFields_iff_alike]
    exact exists_congr fun kind => exists_congr fun hierarchy => and_congr_left fun _ =>
      ⟨fun h => h.of_mem_iff fun _ => hperm.mem_iff.symm,
        fun h => h.of_mem_iff fun _ => hperm.mem_iff⟩
  · obtain ⟨kind, hierarchy, json, halike, -, hjson, rfl⟩ := matchFields_eq_ok_iff.mp hp
    obtain ⟨kind', hierarchy', json', halike', -, hjson', rfl⟩ := matchFields_eq_ok_iff.mp hq
    obtain ⟨rfl, rfl⟩ := halike.unique (halike'.of_mem_iff fun _ => hperm.mem_iff.symm)
    obtain rfl := Option.some.inj (hjson.symm.trans hjson')
    exact ⟨hierarchy, json, FieldPredicate.build_none _, FieldPredicate.build_none _⟩

/-- An index with two codes that can be matched together, both in the nested parts of a thing. -/
def codedParts : Index :=
  ⟨"things",
    [.object "parts" .nested true
      [.value "code" { kind := .keyword } false, .value "label" { kind := .keyword } false]],
    by decide, rfl⟩

/-- Three paths, two of them equal, in two orders. -/
theorem matchFields_symmetric_repeatedPath :
    let scope : Scope := ⟨[codedParts], by simp⟩
    let paths := ["parts.code", "parts.label", "parts.code"]
    let other := ["parts.label", "parts.code", "parts.code"]
    other.Perm paths ∧ scope.Alike paths .keyword ["parts"] ∧
      ∃ p q, scope.matchFields paths (.text "a") = .ok p ∧
        scope.matchFields other (.text "a") = .ok q ∧
        ∃ (hierarchy : List String) (json : Json),
          p.build none = .ok (hierarchy.foldr nestedClause
            (anyOf (paths.map ((FieldTest.matching json none).clause none)))) ∧
          q.build none = .ok (hierarchy.foldr nestedClause
            (anyOf (other.map ((FieldTest.matching json none).clause none)))) := by
  intro scope paths other
  have hperm : other.Perm paths := .swap ..
  have halike : scope.Alike paths .keyword ["parts"] := by
    refine ⟨by simp [paths], fun path hpath => ?_⟩
    have hpath : path = "parts.code" ∨ path = "parts.label" := by
      simpa [paths, or_comm, or_left_comm] using hpath
    rcases hpath with rfl | rfl
    · exact ⟨_, rfl, rfl, rfl, rfl⟩
    · exact ⟨_, rfl, rfl, rfl, rfl⟩
  obtain ⟨hsuccess, -, horder⟩ := matchFields_symmetric scope paths (.text "a")
  obtain ⟨hagain, hbuild⟩ := horder other hperm
  obtain ⟨p, hp⟩ := hsuccess.mpr ⟨_, _, halike, by decide, rfl⟩
  obtain ⟨q, hq⟩ := hagain.mpr ⟨p, hp⟩
  exact ⟨hperm, halike, p, q, hp, hq, hbuild p q hp hq⟩

end Scope

end SearchDsl
