import Mathlib.Data.List.Nodup
import SearchDsl.Proofs.Path
import SearchDsl.Proofs.Steps
import SearchDsl.Schema.Index

/-!
# `SearchDsl.Proofs.Schema.Nesting`: paths and hierarchies of declared fields

Checked definitions have names without dots, each once among its siblings (`AllWellNamed`). From
that follow the three facts on the fields of an index that resolution relies on:

* no two fields have the same path, so every field is found at its path
  (`Index.field?_eq_some_iff`);
* each path of a hierarchy lies below the ones before it and at or above the field
  (`Index.field?_hierarchy`);
* each path of a hierarchy is that of a nested object whose own hierarchy is an initial part of it,
  up to that path (`Index.exists_enclosing`).

All of them are by induction over definitions and lists of definitions at once, with the parent path
and its hierarchy left open.
-/

set_option autoImplicit false

open SearchDsl.Path (segments segmentsOf isBelow)

namespace SearchDsl

namespace Definition

/-! ### Names -/

mutual

/-- The names of a definition and everything below it are valid, each once among its siblings. -/
def WellNamed : Definition → Prop
  | value name _ _ => isValidName name = true
  | object name _ _ children => isValidName name = true ∧ AllWellNamed children

/-- The names of siblings and everything below them. -/
def AllWellNamed : List Definition → Prop
  | [] => True
  | definition :: rest =>
      WellNamed definition ∧ definition.name ∉ rest.map Definition.name ∧ AllWellNamed rest

end

/-- The names that can be given to a field. -/
theorem isValidName_iff {name : String} :
    isValidName name = true ↔ name ≠ "" ∧ '.' ∉ name.toList := by
  simp [isValidName]

/-- There is no dot in a valid name, so it is one segment of a path. -/
theorem dot_not_mem_of_isValidName {name : String} (h : isValidName name = true) :
    '.' ∉ name.toList :=
  (isValidName_iff.mp h).2

/-- A valid name adds something to a path. -/
theorem ne_empty_of_isValidName {name : String} (h : isValidName name = true) : name ≠ "" :=
  (isValidName_iff.mp h).1

/-- A name passes if it is valid and was not given before. -/
theorem checkName_eq_ok_iff {parent : Option String} {before : List String} {name : String} :
    checkName parent before name = .ok () ↔ isValidName name = true ∧ name ∉ before := by
  unfold checkName
  split
  · next hinvalid => simp [hinvalid]
  · next hvalid =>
      split
      · next hbefore => simp [hbefore]
      · next hbefore => simpa [hbefore] using hvalid

mutual

/-- The check of a definition covers the names in it. -/
theorem wellNamed_of_check (parent : Option String) (before : List String) :
    ∀ definition : Definition, check parent before definition = .ok () →
      WellNamed definition ∧ definition.name ∉ before
  | value name type multiValued, h => by
      obtain ⟨hname, -⟩ := Steps.check_eq_ok_iff.mp h
      exact checkName_eq_ok_iff.mp hname
  | object name layout multiValued children, h => by
      obtain ⟨hname, hchildren⟩ := Steps.check_eq_ok_iff.mp h
      obtain ⟨hvalid, hbefore⟩ := checkName_eq_ok_iff.mp hname
      exact ⟨⟨hvalid, (allWellNamed_of_checkAll _ [] children hchildren).1⟩, hbefore⟩

/-- The check of several definitions covers their names as well. None of them was given before. -/
theorem allWellNamed_of_checkAll (parent : Option String) (before : List String) :
    ∀ definitions : List Definition, checkAll parent before definitions = .ok () →
      AllWellNamed definitions ∧ ∀ name ∈ before, name ∉ definitions.map Definition.name
  | [], _ => ⟨trivial, fun _ _ => by simp⟩
  | definition :: rest, h => by
      obtain ⟨hfirst, hothers⟩ := Steps.check_eq_ok_iff.mp h
      obtain ⟨hnamed, hbefore⟩ := wellNamed_of_check parent before definition hfirst
      obtain ⟨hrest, hlater⟩ := allWellNamed_of_checkAll parent _ rest hothers
      refine ⟨⟨hnamed, hlater _ List.mem_cons_self, hrest⟩, fun name hname => ?_⟩
      rw [List.map_cons, List.mem_cons, not_or]
      exact ⟨fun heq => hbefore (heq ▸ hname), hlater name (List.mem_cons_of_mem _ hname)⟩

end

/-! ### Paths -/

mutual

/-- The path of a field starts with the names of the parent and of the definition it belongs to. -/
theorem segments_of_mem_describe (parent : Option String) (hierarchy : List String) :
    ∀ definition : Definition, WellNamed definition →
      ∀ field ∈ describe parent hierarchy definition,
        ∃ rest, segments field.path = segmentsOf parent ++ definition.name :: rest
  | value name type multiValued, h, field, hfield => by
      obtain rfl := List.mem_singleton.mp hfield
      exact ⟨[], Path.segments_join parent (dot_not_mem_of_isValidName h)⟩
  | object name layout multiValued children, h, field, hfield => by
      have hpath := Path.segments_join parent (dot_not_mem_of_isValidName h.1)
      rcases List.mem_cons.mp hfield with rfl | hbelow
      · exact ⟨[], hpath⟩
      · obtain ⟨child, -, rest, hrest⟩ :=
          segments_of_mem_describeAll _ _ children h.2 field hbelow
        refine ⟨child.name :: rest, ?_⟩
        rw [hrest]
        show segments (Path.join parent name) ++ _ = _
        rw [hpath, List.append_assoc]
        rfl

/-- The path of a field of several definitions starts with the names of the parent and of one of
them. -/
theorem segments_of_mem_describeAll (parent : Option String) (hierarchy : List String) :
    ∀ definitions : List Definition, AllWellNamed definitions →
      ∀ field ∈ describeAll parent hierarchy definitions, ∃ definition ∈ definitions, ∃ rest,
        segments field.path = segmentsOf parent ++ definition.name :: rest
  | [], _, field, hfield => by simp [describeAll] at hfield
  | definition :: rest, h, field, hfield => by
      rcases List.mem_append.mp hfield with hfirst | hlater
      · obtain ⟨names, hnames⟩ :=
          segments_of_mem_describe parent hierarchy definition h.1 field hfirst
        exact ⟨definition, List.mem_cons_self, names, hnames⟩
      · obtain ⟨other, hother, names, hnames⟩ :=
          segments_of_mem_describeAll parent hierarchy rest h.2.2 field hlater
        exact ⟨other, List.mem_cons_of_mem _ hother, names, hnames⟩

end

mutual

/-- A definition declares no path twice. -/
theorem nodup_describe (parent : Option String) (hierarchy : List String) :
    ∀ definition : Definition, WellNamed definition →
      ((describe parent hierarchy definition).map Descriptor.path).Nodup
  | value name type multiValued, _ => List.nodup_singleton _
  | object name layout multiValued children, h => by
      refine List.nodup_cons.mpr ⟨fun hmem => ?_, nodup_describeAll _ _ children h.2⟩
      -- Everything below the object has a path with more names.
      obtain ⟨field, hfield, hpath⟩ := List.mem_map.mp hmem
      obtain ⟨child, -, rest, hrest⟩ :=
        segments_of_mem_describeAll _ _ children h.2 field hfield
      rw [hpath] at hrest
      have hlength := congrArg List.length hrest
      simp only [segmentsOf, List.length_append, List.length_cons] at hlength
      omega

/-- No two fields have the same path. -/
theorem nodup_describeAll (parent : Option String) (hierarchy : List String) :
    ∀ definitions : List Definition, AllWellNamed definitions →
      ((describeAll parent hierarchy definitions).map Descriptor.path).Nodup
  | [], _ => List.nodup_nil
  | definition :: rest, h => by
      rw [describeAll, List.map_append]
      refine List.nodup_append.mpr ⟨nodup_describe parent hierarchy definition h.1,
        nodup_describeAll parent hierarchy rest h.2.2, ?_⟩
      intro first hfirst later hlater hpath
      obtain ⟨field, hfield, rfl⟩ := List.mem_map.mp hfirst
      obtain ⟨other, hother, rfl⟩ := List.mem_map.mp hlater
      obtain ⟨names, hnames⟩ :=
        segments_of_mem_describe parent hierarchy definition h.1 field hfield
      obtain ⟨sibling, hsibling, others, hothers⟩ :=
        segments_of_mem_describeAll parent hierarchy rest h.2.2 other hother
      -- The paths go on with different names after that of the parent.
      rw [← hpath, hnames] at hothers
      have hname := (List.cons.inj (List.append_cancel_left hothers)).1
      exact h.2.1 (hname ▸ List.mem_map_of_mem hsibling)

end

/-! ### Hierarchies -/

/-- A hierarchy of a path that may be left out: each of its paths lies below the ones before it, and
the path itself is the last of them or lies below all. -/
structure Encloses (hierarchy : List String) (path : Option String) : Prop where
  chain : hierarchy.Pairwise fun outer inner => isBelow inner outer = true
  above : ∀ outer ∈ hierarchy, ∃ inner, path = some inner ∧
    (outer = inner ∨ isBelow inner outer = true)

/-- A name below a path lies below its whole hierarchy. -/
theorem Encloses.isBelow_join {hierarchy : List String} {parent : Option String}
    (h : Encloses hierarchy parent) {name : String} (hname : name ≠ "") :
    ∀ outer ∈ hierarchy, isBelow (Path.join parent name) outer = true := by
  intro outer houter
  obtain ⟨inner, rfl, heq | hbelow⟩ := h.above outer houter
  · exact heq ▸ Path.isBelow_join inner hname
  · exact Path.isBelow_trans (Path.isBelow_join inner hname) hbelow

/-- The hierarchy inside an object encloses the object. -/
theorem Encloses.enclose {hierarchy : List String} {parent : Option String}
    (h : Encloses hierarchy parent) {name : String} (hname : name ≠ "") (layout : ObjectLayout) :
    Encloses (enclose layout (Path.join parent name) hierarchy) (some (Path.join parent name)) := by
  have hbelow := h.isBelow_join hname
  cases layout with
  | flattened => exact ⟨h.chain, fun outer houter => ⟨_, rfl, .inr (hbelow outer houter)⟩⟩
  | nested =>
      constructor
      · refine List.pairwise_append.mpr ⟨h.chain, List.pairwise_singleton _ _, ?_⟩
        intro outer houter inner hinner
        rw [List.mem_singleton.mp hinner]
        exact hbelow outer houter
      · intro outer houter
        rcases List.mem_append.mp houter with hbefore | hlast
        · exact ⟨_, rfl, .inr (hbelow outer hbefore)⟩
        · exact ⟨_, rfl, .inl (List.mem_singleton.mp hlast)⟩

mutual

/-- The hierarchy of every field encloses the field, if that of the parent encloses the parent. -/
theorem encloses_of_mem_describe {parent : Option String} {hierarchy : List String}
    (hout : Encloses hierarchy parent) : ∀ definition : Definition, WellNamed definition →
      ∀ field ∈ describe parent hierarchy definition, Encloses field.hierarchy (some field.path)
  | value name type multiValued, h, field, hfield => by
      obtain rfl := List.mem_singleton.mp hfield
      exact hout.enclose (ne_empty_of_isValidName h) .flattened
  | object name layout multiValued children, h, field, hfield => by
      have hinside := hout.enclose (ne_empty_of_isValidName h.1) layout
      rcases List.mem_cons.mp hfield with rfl | hbelow
      · exact hinside
      · exact encloses_of_mem_describeAll hinside children h.2 field hbelow

/-- The hierarchies of the fields of several definitions enclose them as well. -/
theorem encloses_of_mem_describeAll {parent : Option String} {hierarchy : List String}
    (hout : Encloses hierarchy parent) :
    ∀ definitions : List Definition, AllWellNamed definitions →
      ∀ field ∈ describeAll parent hierarchy definitions,
        Encloses field.hierarchy (some field.path)
  | [], _, field, hfield => by simp [describeAll] at hfield
  | definition :: rest, h, field, hfield => by
      rcases List.mem_append.mp hfield with hfirst | hlater
      · exact encloses_of_mem_describe hout definition h.1 field hfirst
      · exact encloses_of_mem_describeAll hout rest h.2.2 field hlater

end

/-- One of some fields is the nested object at a path, and its hierarchy is the part of the given
one up to that path. -/
def HasLevel (fields : List Descriptor) (path : String) (hierarchy : List String) : Prop :=
  ∃ object ∈ fields, object.path = path ∧ object.shape = .object .nested ∧
    object.hierarchy <+: hierarchy ∧ object.hierarchy.getLast? = some path

/-- The nested object is still there among more fields. -/
theorem HasLevel.mono {fields more : List Descriptor} {path : String} {hierarchy : List String}
    (h : HasLevel fields path hierarchy) (hsub : fields ⊆ more) : HasLevel more path hierarchy := by
  obtain ⟨object, hobject, hlevel⟩ := h
  exact ⟨object, hsub hobject, hlevel⟩

mutual

/-- The hierarchy of a field extends that of its parent, level by level. -/
theorem levels_of_mem_describe (parent : Option String) (hierarchy : List String) :
    ∀ definition : Definition, ∀ field ∈ describe parent hierarchy definition,
      hierarchy <+: field.hierarchy ∧ ∀ level ∈ field.hierarchy,
        level ∈ hierarchy ∨ HasLevel (describe parent hierarchy definition) level field.hierarchy
  | value name type multiValued, field, hfield => by
      obtain rfl := List.mem_singleton.mp hfield
      exact ⟨List.prefix_refl _, fun level hlevel => .inl hlevel⟩
  | object name layout multiValued children, field, hfield => by
      let path := Path.join parent name
      let self : Descriptor :=
        ⟨path, name, .object layout, multiValued, enclose layout path hierarchy⟩
      have hself : self ∈ describe parent hierarchy (object name layout multiValued children) :=
        List.mem_cons_self
      have hinitial : hierarchy <+: self.hierarchy := by
        cases layout with
        | flattened => exact List.prefix_refl _
        | nested => exact List.prefix_append _ _
      -- What the object itself adds to the hierarchy of its parent is its own level.
      have hown : ∀ {whole : List String}, self.hierarchy <+: whole → ∀ level ∈ self.hierarchy,
          level ∈ hierarchy ∨
            HasLevel (describe parent hierarchy (object name layout multiValued children)) level
              whole := by
        intro whole hwhole level hlevel
        cases layout with
        | flattened => exact .inl hlevel
        | nested =>
            rcases List.mem_append.mp hlevel with houter | hlast
            · exact .inl houter
            · rw [List.mem_singleton.mp hlast]
              exact .inr ⟨self, hself, rfl, rfl, hwhole, List.getLast?_concat⟩
      rcases List.mem_cons.mp hfield with rfl | hbelow
      · exact ⟨hinitial, hown (List.prefix_refl _)⟩
      · obtain ⟨hinside, hlevels⟩ := levels_of_mem_describeAll (some path) self.hierarchy children
          field hbelow
        refine ⟨hinitial.trans hinside, fun level hlevel => ?_⟩
        rcases hlevels level hlevel with houter | hinner
        · exact hown hinside level houter
        · exact .inr (hinner.mono (List.subset_cons_self _ _))

/-- The hierarchies of the fields of several definitions extend that of the parent as well. -/
theorem levels_of_mem_describeAll (parent : Option String) (hierarchy : List String) :
    ∀ definitions : List Definition, ∀ field ∈ describeAll parent hierarchy definitions,
      hierarchy <+: field.hierarchy ∧ ∀ level ∈ field.hierarchy,
        level ∈ hierarchy ∨
          HasLevel (describeAll parent hierarchy definitions) level field.hierarchy
  | [], field, hfield => by simp [describeAll] at hfield
  | definition :: rest, field, hfield => by
      rcases List.mem_append.mp hfield with hfirst | hlater
      · obtain ⟨hinitial, hlevels⟩ :=
          levels_of_mem_describe parent hierarchy definition field hfirst
        exact ⟨hinitial, fun level hlevel => (hlevels level hlevel).imp_right fun hhas =>
          hhas.mono (List.subset_append_left _ _)⟩
      · obtain ⟨hinitial, hlevels⟩ := levels_of_mem_describeAll parent hierarchy rest field hlater
        exact ⟨hinitial, fun level hlevel => (hlevels level hlevel).imp_right fun hhas =>
          hhas.mono (List.subset_append_right _ _)⟩

end

end Definition

namespace Index

variable {index : Index} {path : String} {field : Descriptor}

/-- The definitions of an index are well named, since they were checked. -/
theorem allWellNamed (index : Index) : Definition.AllWellNamed index.definitions :=
  (Definition.allWellNamed_of_checkAll none [] index.definitions index.checked).1

/-- Every field is found at its path. -/
theorem field?_eq_some_iff :
    index.field? path = some field ↔ field ∈ index.fields ∧ field.path = path := by
  have hnodup : (index.fields.map Descriptor.path).Nodup :=
    Definition.nodup_describeAll none [] index.definitions index.allWellNamed
  constructor
  · intro h
    exact ⟨List.mem_of_find?_eq_some h, by simpa using List.find?_some h⟩
  · -- Something is found at the path, and it is this field, because no other one has the path.
    rintro ⟨hfield, rfl⟩
    cases hfind : index.field? field.path with
    | none =>
        have hnone := List.find?_eq_none.mp hfind field hfield
        simp at hnone
    | some other =>
        have hpath : other.path = field.path := by simpa using List.find?_some hfind
        have hother := List.mem_of_find?_eq_some hfind
        rw [List.inj_on_of_nodup_map hnodup hother hfield hpath]

/-- The hierarchy of a field is a chain of paths that ends at the field or above it. -/
theorem field?_hierarchy (h : index.field? path = some field) :
    Definition.Encloses field.hierarchy (some path) := by
  obtain ⟨hfield, rfl⟩ := field?_eq_some_iff.mp h
  exact Definition.encloses_of_mem_describeAll ⟨.nil, fun _ houter => absurd houter (by simp)⟩
    index.definitions index.allWellNamed field hfield

/-- Each level of the hierarchy of a field is a nested object, and the hierarchy of that object is
the part of the field's hierarchy up to it. -/
theorem exists_enclosing (h : index.field? path = some field) {level : String}
    (hlevel : level ∈ field.hierarchy) :
    ∃ object, index.field? level = some object ∧ object.shape = .object .nested ∧
      object.hierarchy <+: field.hierarchy ∧ object.hierarchy.getLast? = some level := by
  obtain ⟨hfield, -⟩ := field?_eq_some_iff.mp h
  obtain ⟨-, hlevels⟩ :=
    Definition.levels_of_mem_describeAll none [] index.definitions field hfield
  rcases hlevels level hlevel with hnone | ⟨object, hobject, hpath, hnested⟩
  · -- At the top there are no levels to begin with.
    simp at hnone
  · exact ⟨object, field?_eq_some_iff.mpr ⟨hobject, hpath⟩, hnested⟩

end Index

end SearchDsl
