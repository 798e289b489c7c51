import SearchDsl.Proofs.Json.Members
import SearchDsl.Proofs.Schema.Nesting

/-!
# `SearchDsl.Proofs.Schema.Mapping`: the mapping says what is nested where

The mapping of an index lists its fields by name, level by level. Walking along the names of a path
and noting where the type is `nested` gives the nested objects around the field, without the paths
and hierarchies that describing computes (`Index.mappedNesting`). Both are the same
(`Index.mappedNesting_eq_hierarchy`).
-/

set_option autoImplicit false

open SearchDsl.Path (segments segmentsOf)

namespace SearchDsl

namespace Json

/-- The paths of the nested objects on the way along some names, as a mapping tells. The names start
below the parent that the mapping is of. -/
def nestedPrefixes (mapping : Json) (parent : Option String) : List String → List String
  | [] => []
  | name :: names =>
      match (mapping.get? "properties").bind (get? name) with
      | none => []
      | some field =>
          let path := Path.join parent name
          (if (field.get? "type").bind asString? = some "nested" then [path] else [])
            ++ nestedPrefixes field (some path) names

end Json

/-- The type in the mapping of a value field is that of the field, which is never nested. -/
theorem FieldType.get?_type_mapping (type : FieldType) :
    type.mapping.get? "type" = some (.string type.mappingName) ∧ type.mappingName ≠ "nested" := by
  constructor
  · -- The options before the type have other keys.
    show Json.find? "type" _ = _
    simp only [List.append_assoc]
    rw [Json.find?_member?_append (by decide), Json.find?_member?_append (by decide),
      Json.find?_member?_append (by decide), Json.find?_member?_append (by decide),
      Json.find?_member?_append (by decide)]
    rfl
  · unfold mappingName
    cases type.kind <;> decide

namespace Definition

/-- The mapping of a definition is found under its name. -/
theorem find?_properties {definitions : List Definition} (h : AllWellNamed definitions) :
    ∀ definition ∈ definitions,
      Json.find? definition.name (properties definitions) = some definition.mapping := by
  induction definitions with
  | nil => exact fun _ hmem => absurd hmem List.not_mem_nil
  | cons first rest ih =>
      obtain ⟨-, hname, hrest⟩ := h
      intro definition hmem
      rw [properties]
      rcases List.mem_cons.mp hmem with rfl | hlater
      · exact Json.find?_put_self _ _ _
      · have hne : definition.name ≠ first.name := fun heq =>
          hname (heq ▸ List.mem_map_of_mem hlater)
        rw [Json.find?_put_of_ne hne]
        exact ih hrest definition hlater

/-- A mapping lists definitions. -/
def Lists (mapping : Json) (definitions : List Definition) : Prop :=
  ∀ definition ∈ definitions,
    (mapping.get? "properties").bind (Json.get? definition.name) = some definition.mapping

/-- The mapping of an object lists what is declared in it. -/
theorem lists_mapping_object {name : String} {layout : ObjectLayout} {multiValued : Bool}
    {children : List Definition} (h : AllWellNamed children) :
    Lists (mapping (object name layout multiValued children)) children := by
  intro child hchild
  exact find?_properties h child hchild

mutual

/-- The nested objects that a mapping tells on the way to a field are those that its hierarchy adds
to that of the parent. -/
theorem nestedPrefixes_of_mem_describe (parent : Option String) (hierarchy : List String) :
    ∀ definition : Definition, WellNamed definition →
      ∀ field ∈ describe parent hierarchy definition, ∀ {mapping : Json},
        (mapping.get? "properties").bind (Json.get? definition.name) = some definition.mapping →
          ∀ {names : List String}, segments field.path = segmentsOf parent ++ names →
            hierarchy ++ mapping.nestedPrefixes parent names = field.hierarchy
  | value name type multiValued, h, field, hfield, mapping, hmapping, names, hnames => by
      obtain rfl := List.mem_singleton.mp hfield
      rw [Path.segments_join parent (dot_not_mem_of_isValidName h)] at hnames
      obtain rfl := List.append_cancel_left hnames
      obtain ⟨htype, hvalue⟩ := type.get?_type_mapping
      have hmapping' : (mapping.get? "properties").bind (Json.get? name) = some type.mapping :=
        hmapping
      simp only [Json.nestedPrefixes, hmapping', htype, Option.bind_some, Json.asString?,
        Option.some.injEq, hvalue, if_false, List.append_nil]
  | object name layout multiValued children, h, field, hfield, mapping, hmapping, names,
      hnames => by
      have hself := Path.segments_join parent (dot_not_mem_of_isValidName h.1)
      -- One step of the walk does to the prefixes what entering the object does to the hierarchy.
      have hstep : ∀ rest : List String, hierarchy ++ mapping.nestedPrefixes parent (name :: rest)
          = enclose layout (Path.join parent name) hierarchy
            ++ (Definition.mapping (object name layout multiValued children)).nestedPrefixes
              (some (Path.join parent name)) rest := by
        intro rest
        have hmapping' : (mapping.get? "properties").bind (Json.get? name)
            = some (Definition.mapping (object name layout multiValued children)) := hmapping
        rw [Json.nestedPrefixes, hmapping']
        cases layout with
        | flattened =>
            show hierarchy ++ ((if some "object" = some "nested" then _ else []) ++ _) = _
            rw [if_neg (by decide), List.nil_append]
            rfl
        | nested =>
            show hierarchy ++ ((if some "nested" = some "nested" then _ else []) ++ _)
              = hierarchy ++ [Path.join parent name] ++ _
            rw [if_pos rfl, List.append_assoc]
      rcases List.mem_cons.mp hfield with rfl | hbelow
      · rw [hself] at hnames
        obtain rfl := List.append_cancel_left hnames
        rw [hstep]
        exact List.append_nil _
      · obtain ⟨child, -, rest, hrest⟩ :=
          segments_of_mem_describeAll _ _ children h.2 field hbelow
        -- The names go on below the object.
        have hbelowNames : segments field.path
            = segmentsOf (some (Path.join parent name)) ++ child.name :: rest := hrest
        have hsplit : names = name :: child.name :: rest := by
          have hwhole : segments field.path = segmentsOf parent ++ name :: child.name :: rest := by
            rw [hbelowNames]
            show segments (Path.join parent name) ++ _ = _
            rw [hself, List.append_assoc, List.singleton_append]
          exact List.append_cancel_left (hnames.symm.trans hwhole)
        rw [hsplit, hstep]
        exact nestedPrefixes_of_mem_describeAll _ _ children h.2 field hbelow
          (lists_mapping_object h.2) hbelowNames

/-- A mapping that lists several definitions tells the nested objects on the way to any of their
fields. -/
theorem nestedPrefixes_of_mem_describeAll (parent : Option String) (hierarchy : List String) :
    ∀ definitions : List Definition, AllWellNamed definitions →
      ∀ field ∈ describeAll parent hierarchy definitions, ∀ {mapping : Json},
        Lists mapping definitions →
          ∀ {names : List String}, segments field.path = segmentsOf parent ++ names →
            hierarchy ++ mapping.nestedPrefixes parent names = field.hierarchy
  | [], _, field, hfield, _, _, _, _ => by simp [describeAll] at hfield
  | definition :: rest, h, field, hfield, mapping, hmapping, names, hnames => by
      rcases List.mem_append.mp hfield with hfirst | hlater
      · exact nestedPrefixes_of_mem_describe parent hierarchy definition h.1 field hfirst
          (hmapping definition List.mem_cons_self) hnames
      · exact nestedPrefixes_of_mem_describeAll parent hierarchy rest h.2.2 field hlater
          (fun other hother => hmapping other (List.mem_cons_of_mem _ hother)) hnames

end

end Definition

namespace Index

/-- The paths of the nested objects around a path, as the mapping of the index tells. -/
def mappedNesting (index : Index) (path : String) : List String :=
  index.mapping.nestedPrefixes none (segments path)

/-- The mapping tells the hierarchy of every field. -/
theorem mappedNesting_eq_hierarchy {index : Index} {path : String} {field : Descriptor}
    (h : index.field? path = some field) : index.mappedNesting path = field.hierarchy := by
  obtain ⟨hfield, rfl⟩ := field?_eq_some_iff.mp h
  have hlists : Definition.Lists index.mapping index.definitions := fun definition hmem =>
    Definition.find?_properties index.allWellNamed definition hmem
  exact Definition.nestedPrefixes_of_mem_describeAll none [] index.definitions index.allWellNamed
    field hfield hlists rfl

end Index

end SearchDsl
