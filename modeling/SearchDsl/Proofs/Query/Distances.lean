import SearchDsl.Proofs.Query.Nulls
import SearchDsl.Proofs.Scope.Views

/-!
# `SearchDsl.Proofs.Query.Distances`: what the clause of a distance sort says

The clause of a distance sort is one object. It has the center under the path of the field, and next
to it the direction, the unit and the nested option under names of their own. The path is chosen by
whoever declares the field, and the names are not reserved. Members are set one after the other, the
center first, so a field called `order` or `unit` loses its center to the option of that name.

No other field does: the nested option is there for nested fields only, which have a dot in their
path. `Scope.distanceSort_told_iff` says so. Apart from the two names a clause tells everything that
a distance sort is made of (`DistanceSort.ToldBy`), and sorts with the same clause are the same.
-/

set_option autoImplicit false

namespace SearchDsl

/-! ### Nested options -/

namespace Dialect

/-- The name of the nested option of sorts. -/
def nestedKey : Dialect → String
  | v56 => "nested_path"
  | v60 | v63 | v7 => "nested"

/-- A nested option names the nested objects around a field, in the oldest dialect the innermost of
them only. -/
def Encloses (dialect : Dialect) (option : Json) (hierarchy : List String) : Prop :=
  match dialect with
  | v56 => some option = hierarchy.getLast?.map .string
  | v60 | v63 | v7 => option.chainPaths = hierarchy

variable {dialect : Dialect} {hierarchy : List String}

/-- Outside nested objects a sort has no nested option. -/
theorem nestedSort_nil (dialect : Dialect) : dialect.nestedSort [] = [] := by
  cases dialect <;> rfl

/-- A nested field has a nested option. -/
theorem exists_nestedSort_eq (dialect : Dialect) (h : hierarchy ≠ []) :
    ∃ option, dialect.nestedSort hierarchy = [(dialect.nestedKey, option)] ∧
      dialect.Encloses option hierarchy := by
  have hchain : ∃ option, nestedChain hierarchy = some option ∧ option.chainPaths = hierarchy := by
    have hpaths := chainPaths_nestedChain hierarchy
    rw [if_neg h] at hpaths
    exact Option.map_eq_some_iff.mp hpaths
  obtain ⟨option, hoption, hencloses⟩ := hchain
  cases dialect with
  | v56 =>
      refine ⟨.string (hierarchy.getLast h), ?_, ?_⟩
      · rw [nestedSort, List.getLast?_eq_some_getLast h]
        rfl
      · rw [Encloses, List.getLast?_eq_some_getLast h]
        rfl
  | v60 | v63 | v7 =>
      refine ⟨option, ?_, hencloses⟩
      show Json.member? "nested" (nestedChain hierarchy) = _
      rw [hoption]
      rfl

/-- A nested option is no point. -/
theorem Encloses.get?_lat {option : Json} (h : dialect.Encloses option hierarchy)
    (hne : hierarchy ≠ []) : option.get? "lat" = none := by
  cases dialect with
  | v56 =>
      obtain ⟨level, -, rfl⟩ := Option.map_eq_some_iff.mp (Eq.symm h)
      rfl
  | v60 | v63 | v7 =>
      -- Chains have one of two shapes, and everything else has no paths.
      have hpaths : option.chainPaths ≠ [] := fun hnil => hne (h.symm.trans hnil)
      unfold Json.chainPaths at hpaths
      split at hpaths
      · rfl
      · rfl
      · exact absurd rfl hpaths

end Dialect

/-- The directions have different names. -/
theorem SortDirection.name_inj {direction direction' : SortDirection}
    (h : direction.name = direction'.name) : direction = direction' := by
  cases direction <;> cases direction' <;> simp_all [name]

/-- Finite points are told apart by their JSON. -/
theorem GeoPoint.toJson_inj {p q : GeoPoint} (hp : p.isFinite = true) (hq : q.isFinite = true)
    (h : p.toJson = q.toJson) : p = q := by
  have hread := p.ofJson?_toJson
  rw [h, q.ofJson?_toJson, if_pos hp, if_pos hq] at hread
  exact (Option.some.inj hread).symm

/-! ### Clauses -/

namespace DistanceSort

/-- The names of the options that every distance sort has. -/
def optionNames : List String := ["order", "unit"]

/-- The members of a clause say everything that a distance sort is made of, and nothing else. -/
structure ToldBy (dialect : Dialect) (sort : DistanceSort) (members : List (String × Json)) :
    Prop where
  center : Json.find? sort.path members
    = some (.object [("lat", .double sort.center.lat), ("lon", .double sort.center.lon)])
  direction : Json.find? "order" members = some (.string sort.direction.name)
  unit : Json.find? "unit" members = some (.string "m")
  nesting : sort.hierarchy ≠ [] →
    ∃ option, Json.find? dialect.nestedKey members = some option ∧
      dialect.Encloses option sort.hierarchy
  nothingElse : ∀ key value, Json.find? key members = some value →
    key ∈ sort.path :: optionNames ∨ sort.hierarchy ≠ [] ∧ key = dialect.nestedKey

variable {dialect dialect' : Dialect} {sort sort' : DistanceSort} {key : String}

/-- A distance sort is an object of its members. -/
theorem toJson_eq (dialect : Dialect) (sort : DistanceSort) :
    (SortCriterion.distance sort).toJson dialect
      = .single "_geo_distance" (.object (sort.members dialect)) := rfl

/-- Sorts that render alike have the same members. -/
theorem members_eq_of_toJson_eq (h : (SortCriterion.distance sort).toJson dialect
    = (SortCriterion.distance sort').toJson dialect') :
    sort.members dialect = sort'.members dialect' := by
  rw [toJson_eq, toJson_eq, Json.single, Json.single] at h
  simpa using h

/-- What is found in a clause: the nested option, or else another option, or else the center. -/
theorem find?_members (dialect : Dialect) (sort : DistanceSort) (key : String) :
    Json.find? key (sort.members dialect)
      = (Json.find? key (dialect.nestedSort sort.hierarchy)).or (Json.find? key
          [("unit", .string "m"), ("order", .string sort.direction.name),
            (sort.path, sort.center.toJson)]) := by
  have hreverse : (dialect.nestedSort sort.hierarchy).reverse
      = dialect.nestedSort sort.hierarchy := by
    by_cases hnested : sort.hierarchy = []
    · rw [hnested, Dialect.nestedSort_nil, List.reverse_nil]
    · obtain ⟨option, hoption, -⟩ := dialect.exists_nestedSort_eq hnested
      rw [hoption, List.reverse_singleton]
  rw [members, Json.find?_collect, options, ← Json.find?_append, List.reverse_cons,
    List.reverse_append, hreverse, List.append_assoc]
  rfl

/-- Under every other name than its own the nested option is not found. -/
theorem find?_members_of_ne (h : sort.hierarchy ≠ [] → key ≠ dialect.nestedKey) :
    Json.find? key (sort.members dialect)
      = Json.find? key [("unit", .string "m"), ("order", .string sort.direction.name),
          (sort.path, sort.center.toJson)] := by
  have hnone : Json.find? key (dialect.nestedSort sort.hierarchy) = none := by
    by_cases hnested : sort.hierarchy = []
    · rw [hnested, Dialect.nestedSort_nil, Json.find?]
    · obtain ⟨option, hoption, -⟩ := dialect.exists_nestedSort_eq hnested
      rw [hoption, Json.find?_cons_of_ne (Ne.symm (h hnested)), Json.find?]
  rw [find?_members, hnone, Option.none_or]

/-- Distances are always in meters, even if the field is called so. -/
theorem find?_unit (dialect : Dialect) (sort : DistanceSort) :
    Json.find? "unit" (sort.members dialect) = some (.string "m") := by
  rw [find?_members_of_ne fun _ => by cases dialect <;> decide, Json.find?_cons_self]

/-- The direction is always found, since nothing is set over it. -/
theorem find?_order (dialect : Dialect) (sort : DistanceSort) :
    Json.find? "order" (sort.members dialect) = some (.string sort.direction.name) := by
  rw [find?_members_of_ne fun _ => by cases dialect <;> decide,
    Json.find?_cons_of_ne (by decide), Json.find?_cons_self]

/-- Of the members of a clause only the center is a point. -/
theorem eq_center_of_find? {value : Json} (h : Json.find? key (sort.members dialect) = some value)
    (hlat : value.get? "lat" ≠ none) : key = sort.path ∧ value = sort.center.toJson := by
  rw [find?_members] at h
  rcases Option.or_eq_some_iff.mp h with hnested | ⟨-, hmember⟩
  · have hne : sort.hierarchy ≠ [] := by
      intro hnil
      simp [hnil, Dialect.nestedSort_nil, Json.find?] at hnested
    obtain ⟨option, hoption, hencloses⟩ := dialect.exists_nestedSort_eq hne
    rw [hoption] at hnested
    obtain ⟨-, rfl⟩ := Prod.mk.inj (List.mem_singleton.mp (Json.mem_of_find? hnested))
    exact absurd (hencloses.get?_lat hne) hlat
  · have hmem := Json.mem_of_find? hmember
    simp only [List.mem_cons, List.not_mem_nil, or_false, Prod.mk.injEq] at hmem
    rcases hmem with ⟨-, rfl⟩ | ⟨-, rfl⟩ | hcenter
    · exact absurd rfl hlat
    · exact absurd rfl hlat
    · exact hcenter

/-- The path of a nested field has a dot, and no option has one in its name. -/
def Placed (sort : DistanceSort) : Prop := sort.hierarchy ≠ [] → '.' ∈ sort.path.toList

/-- The nested option does not have the name of the field. -/
theorem Placed.ne_nestedKey (h : sort.Placed) (dialect : Dialect) (hne : sort.hierarchy ≠ []) :
    sort.path ≠ dialect.nestedKey := by
  intro hpath
  have hdot := h hne
  rw [hpath] at hdot
  cases dialect <;> simp [Dialect.nestedKey] at hdot

/-- The center is found under the path unless an option has the name of the field. -/
theorem Placed.find?_path (h : sort.Placed) (hpath : sort.path ∉ optionNames) :
    Json.find? sort.path (sort.members dialect) = some sort.center.toJson := by
  rw [optionNames, List.mem_pair, not_or] at hpath
  rw [find?_members_of_ne (h.ne_nestedKey dialect), Json.find?_cons_of_ne (Ne.symm hpath.2),
    Json.find?_cons_of_ne (Ne.symm hpath.1), Json.find?_cons_self]

/-- The options are all that is left in the clause of a field that has the name of one. -/
theorem Placed.members_eq (h : sort.Placed) (hpath : sort.path ∈ optionNames) :
    sort.members dialect = [("order", .string sort.direction.name), ("unit", .string "m")] := by
  have hnested : sort.hierarchy = [] := by
    by_contra hne
    have hdot := h hne
    rcases List.mem_pair.mp hpath with hname | hname <;> simp [hname] at hdot
  rw [members, options, hnested, Dialect.nestedSort_nil, List.append_nil]
  exact collect_of_overwritten (List.mem_pair.mp hpath)

/-- A clause tells the whole sort unless an option has the name of the field. -/
theorem Placed.toldBy_iff (h : sort.Placed) (hcenter : sort.center.isFinite = true) :
    sort.ToldBy dialect (sort.members dialect) ↔ sort.path ∉ optionNames := by
  constructor
  · -- A center that is overwritten is not found, for what is found is a text.
    intro htold hpath
    have hfound := htold.center
    rcases List.mem_pair.mp hpath with hname | hname
    · rw [hname, find?_order] at hfound
      simp at hfound
    · rw [hname, find?_unit] at hfound
      simp at hfound
  · intro hpath
    refine ⟨?_, find?_order dialect sort, find?_unit dialect sort, fun hne => ?_,
      fun key value hfound => ?_⟩
    · obtain ⟨hlat, hlon⟩ := Bool.and_eq_true_iff.mp hcenter
      rw [h.find?_path hpath, GeoPoint.toJson, Json.ofDouble, Json.ofDouble, if_pos hlat,
        if_pos hlon]
    · obtain ⟨option, hoption, hencloses⟩ := dialect.exists_nestedSort_eq hne
      refine ⟨option, ?_, hencloses⟩
      rw [find?_members, hoption, Json.find?_cons_self, Option.some_or]
    · rcases List.mem_cons.mp (Json.mem_of_mem_collect (Json.mem_of_find? hfound)) with
        hfirst | hoption
      · exact .inl ((Prod.mk.inj hfirst).1 ▸ List.mem_cons_self)
      · rcases mem_options_iff.mp hoption with hname | hname | hnested
        · exact .inl (by simp [(Prod.mk.inj hname).1, optionNames])
        · exact .inl (by simp [(Prod.mk.inj hname).1, optionNames])
        · have hne := (Dialect.key_of_mem_nestedSort hnested).1
          obtain ⟨option, hsingle, -⟩ := dialect.exists_nestedSort_eq hne
          rw [hsingle] at hnested
          exact .inr ⟨hne, (Prod.mk.inj (List.mem_singleton.mp hnested)).1⟩

/-- The members tell the direction. -/
theorem direction_of_members_eq (h : sort.members dialect = sort'.members dialect') :
    sort.direction = sort'.direction := by
  have hname := sort.find?_order dialect
  rw [h, find?_order] at hname
  exact SortDirection.name_inj (Json.string.inj (Option.some.inj hname)).symm

/-- A center that is there has the same field in every sort with that clause. -/
theorem Placed.eq_of_members_eq (h : sort.Placed) (hcenter : sort.center.isFinite = true)
    (hcenter' : sort'.center.isFinite = true)
    (heq : sort.members dialect = sort'.members dialect') (hpath : sort.path ∉ optionNames) :
    sort.path = sort'.path ∧ sort.center = sort'.center := by
  have hfound : Json.find? sort.path (sort.members dialect) = some sort.center.toJson :=
    h.find?_path hpath
  rw [heq] at hfound
  obtain ⟨hsame, hpoint⟩ := eq_center_of_find? hfound nofun
  exact ⟨hsame, GeoPoint.toJson_inj hcenter hcenter' hpoint⟩

end DistanceSort

namespace Scope

variable {scope scope' : Scope} {path path' : String} {center center' : GeoPoint}
  {sort sort' : DistanceSort}

/-- Turning a sort around leaves its field where it is. -/
theorem placed_of_distanceSort (h : scope.distanceSort path center = .ok sort)
    (direction : SortDirection) : DistanceSort.Placed { sort with direction } := by
  obtain ⟨field, hfield, rfl⟩ := distanceSort_eq_ok h
  exact dot_mem_of_valueField hfield

/-- A sortable geo point field of an index has distance sorts in the scope of that index. -/
theorem distanceSort_single {index : Index} {declared : Descriptor} {type : FieldType}
    (hdeclared : index.field? path = some declared) (hshape : declared.shape = .value type)
    (hkind : type.kind = .geoPoint) (hsortable : type.sortable = true) (center : GeoPoint) :
    (single index).distanceSort path center
      = .ok { path, center, hierarchy := declared.hierarchy } := by
  unfold distanceSort
  rw [Steps.bind_eq_ok_iff]
  refine ⟨_, valueField_single hdeclared hshape,
    Steps.throwIf_eq_ok_iff.mpr ⟨not_not.mpr hkind, ?_⟩⟩
  exact Steps.check_eq_ok_iff.mpr ⟨if_pos hsortable, rfl⟩

/-- Sorts with the same clause, of any scopes and in any dialects, have the same direction. They
have the same field and center too, unless options have the names of both fields. -/
theorem eq_of_toJson_eq (h : scope.distanceSort path center = .ok sort)
    (h' : scope'.distanceSort path' center' = .ok sort') (hcenter : center.isFinite = true)
    (hcenter' : center'.isFinite = true) {direction direction' : SortDirection}
    {dialect dialect' : Dialect}
    (heq : (SortCriterion.distance { sort with direction }).toJson dialect
      = (SortCriterion.distance { sort' with direction := direction' }).toJson dialect') :
    direction = direction' ∧ (path = path' ∧ center = center' ∨
      path ∈ DistanceSort.optionNames ∧ path' ∈ DistanceSort.optionNames) := by
  have hplaced := placed_of_distanceSort h direction
  have hplaced' := placed_of_distanceSort h' direction'
  obtain ⟨field, -, rfl⟩ := distanceSort_eq_ok h
  obtain ⟨field', -, rfl⟩ := distanceSort_eq_ok h'
  have hmembers := DistanceSort.members_eq_of_toJson_eq heq
  refine ⟨DistanceSort.direction_of_members_eq hmembers, ?_⟩
  by_cases hpath : path ∈ DistanceSort.optionNames
  · by_cases hpath' : path' ∈ DistanceSort.optionNames
    · exact .inr ⟨hpath, hpath'⟩
    · -- The second center is in place, so the first field has the name of the second one.
      have hsame : path' = path :=
        (hplaced'.eq_of_members_eq hcenter' hcenter hmembers.symm hpath').1
      exact absurd (hsame ▸ hpath) hpath'
  · exact .inl (hplaced.eq_of_members_eq hcenter hcenter' hmembers hpath)

/-- The clause of a field that has the name of an option says nothing but the direction. -/
theorem toJson_eq_of_mem_optionNames (h : scope.distanceSort path center = .ok sort)
    (h' : scope'.distanceSort path' center' = .ok sort') {direction direction' : SortDirection}
    {dialect dialect' : Dialect} (hpath : path ∈ DistanceSort.optionNames)
    (hpath' : path' ∈ DistanceSort.optionNames) (hdirection : direction = direction') :
    (SortCriterion.distance { sort with direction }).toJson dialect
      = (SortCriterion.distance { sort' with direction := direction' }).toJson dialect' := by
  have hplaced := placed_of_distanceSort h direction
  have hplaced' := placed_of_distanceSort h' direction'
  obtain ⟨field, -, rfl⟩ := distanceSort_eq_ok h
  obtain ⟨field', -, rfl⟩ := distanceSort_eq_ok h'
  rw [DistanceSort.toJson_eq, DistanceSort.toJson_eq, hplaced.members_eq hpath,
    hplaced'.members_eq hpath', hdirection]

/-- Every geo point field of an index that can be sorted has a distance sort from every center that
is finite. In each direction and dialect its clause tells the whole sort exactly if no option has
the name of the field. So other sorts, of any scope and in any dialect, only have the same clause if
they are the same, unless options have the names of both fields. The sorts of such fields in one
direction all have the same clause, whatever their centers are. -/
theorem distanceSort_told_iff {index : Index} {path : String} {declared : Descriptor}
    {type : FieldType} {center : GeoPoint} (hdeclared : index.field? path = some declared)
    (hshape : declared.shape = .value type) (hkind : type.kind = .geoPoint)
    (hsortable : type.sortable = true) (hcenter : center.isFinite = true) :
    ∃ sort, (single index).distanceSort path center = .ok sort ∧
      sort.path = path ∧ sort.center = center ∧ sort.hierarchy = declared.hierarchy ∧
      (∀ (direction : SortDirection) (dialect : Dialect), ∃ members,
        (SortCriterion.distance { sort with direction }).toJson dialect
          = .single "_geo_distance" (.object members) ∧
        (DistanceSort.ToldBy dialect { sort with direction } members ↔
          path ∉ DistanceSort.optionNames)) ∧
      ∀ (scope : Scope) (path' : String) (center' : GeoPoint) (sort' : DistanceSort),
        scope.distanceSort path' center' = .ok sort' → center'.isFinite = true →
        ∀ (direction direction' : SortDirection) (dialect dialect' : Dialect),
          ((SortCriterion.distance { sort with direction }).toJson dialect
              = (SortCriterion.distance { sort' with direction := direction' }).toJson dialect' →
            direction = direction' ∧ (path = path' ∧ center = center' ∨
              path ∈ DistanceSort.optionNames ∧ path' ∈ DistanceSort.optionNames)) ∧
          (path ∈ DistanceSort.optionNames → path' ∈ DistanceSort.optionNames →
            direction = direction' →
            (SortCriterion.distance { sort with direction }).toJson dialect
              = (SortCriterion.distance { sort' with direction := direction' }).toJson dialect') := by
  have hsort := distanceSort_single hdeclared hshape hkind hsortable center
  refine ⟨_, hsort, rfl, rfl, rfl, fun direction dialect => ?_, ?_⟩
  · exact ⟨_, DistanceSort.toJson_eq dialect _,
      (placed_of_distanceSort hsort direction).toldBy_iff hcenter⟩
  · intro scope path' center' sort' hsort' hcenter' direction direction' dialect dialect'
    exact ⟨eq_of_toJson_eq hsort hsort' hcenter hcenter', toJson_eq_of_mem_optionNames hsort hsort'⟩

/-- An index of tours. They start at one point, which has an unlucky name, and stop at others. -/
def tours : Index :=
  let point : FieldType := { kind := .geoPoint, sortable := true }
  ⟨"tours", [.value "order" point false, .object "stops" .nested true [.value "at" point true]],
    by decide, rfl⟩

/-- A center north of the equator. -/
def lyon : GeoPoint := ⟨.ofInt .binary64 45, .ofInt .binary64 4⟩

/-- A center south of it. -/
def sydney : GeoPoint := ⟨.ofInt .binary64 (-33), .ofInt .binary64 151⟩

/-- The distance to a stop is told by its clause, which is not that of the distance to a start. -/
theorem distanceSort_told_iff_tours :
    ∃ stop start, (single tours).distanceSort "stops.at" lyon = .ok stop ∧
      (single tours).distanceSort "order" sydney = .ok start ∧
      stop.hierarchy = ["stops"] ∧
      (∃ members, (SortCriterion.distance { stop with direction := .descending }).toJson .v56
          = .single "_geo_distance" (.object members) ∧
        DistanceSort.ToldBy .v56 { stop with direction := .descending } members) ∧
      (SortCriterion.distance { stop with direction := .ascending }).toJson .v7
        ≠ (SortCriterion.distance { start with direction := .ascending }).toJson .v7 := by
  have hlyon : lyon.isFinite = true := by decide +kernel
  have hsydney : sydney.isFinite = true := by decide +kernel
  have hdeclared : tours.field? "stops.at" = some
    ⟨"stops.at", "at", .value { kind := .geoPoint, sortable := true }, true, ["stops"]⟩ := rfl
  have hstart : (single tours).distanceSort "order" sydney
    = .ok { path := "order", center := sydney, hierarchy := [] } := rfl
  obtain ⟨stop, hstop, -, -, hhierarchy, htold, hdiffers⟩ :=
    distanceSort_told_iff hdeclared rfl rfl rfl hlyon
  refine ⟨stop, _, hstop, hstart, hhierarchy, ?_, fun heq => ?_⟩
  · obtain ⟨members, hmembers, hiff⟩ := htold .descending .v56
    exact ⟨members, hmembers, hiff.mpr (by decide)⟩
  · have hsame := (hdiffers _ _ _ _ hstart hsydney .ascending .ascending .v7 .v7).1 heq
    revert hsame
    decide

/-- Two centers far apart, and the same clause, which has neither of them. -/
theorem distanceSort_loses_center :
    ∃ sort sort', lyon.isFinite = true ∧ sydney.isFinite = true ∧ lyon ≠ sydney ∧
      (single tours).distanceSort "order" lyon = .ok sort ∧
      (single tours).distanceSort "order" sydney = .ok sort' ∧
      (SortCriterion.distance sort).toJson .v7
        = .single "_geo_distance" (.object [("order", .string "asc"), ("unit", .string "m")]) ∧
      (SortCriterion.distance sort').toJson .v7 = (SortCriterion.distance sort).toJson .v7 := by
  have hclause : ∀ center : GeoPoint,
      (SortCriterion.distance ⟨"order", center, [], .ascending⟩).toJson .v7
        = .single "_geo_distance" (.object [("order", .string "asc"), ("unit", .string "m")]) := by
    intro center
    have hplaced : DistanceSort.Placed ⟨"order", center, [], .ascending⟩ := fun h => absurd rfl h
    rw [DistanceSort.toJson_eq, hplaced.members_eq List.mem_cons_self]
    rfl
  exact ⟨⟨"order", lyon, [], .ascending⟩, ⟨"order", sydney, [], .ascending⟩, by decide +kernel,
    by decide +kernel, by decide +kernel, rfl, rfl, hclause lyon,
    (hclause sydney).trans (hclause lyon).symm⟩

end Scope

end SearchDsl
