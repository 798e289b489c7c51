import SearchDsl.Proofs.Json.Members
import SearchDsl.Proofs.Schema.Nodes
import SearchDsl.Proofs.Schema.Registration

/-!
# `SearchDsl.Proofs.Schema.Inventory`: what an index says of its definitions

An index is there if its name is not empty and nothing is wrong with any node of its definitions.
It then knows each node once and in the same way everywhere (`Index.Describes`): in its fields,
which are the descriptors of the nodes, at the path of the node, in the list of paths, and in the
mapping, which has one entry for each of the paths (`Index.ofDefinitions_describes`).

The entries of a mapping are read from the mapping alone (`Json.propertyPaths`). The mapping sets
the fields of an object one after the other, and their names being distinct nothing is lost by
that.
-/

set_option autoImplicit false

namespace SearchDsl

namespace Json

/-! ### The entries of a mapping -/

mutual

/-- The paths of the entries in the properties of a mapping, and in those of the mappings that are
given for the entries. -/
def propertyPaths (parent : Option String) : Json → List String
  | object members => memberPaths parent members
  | _ => []

/-- The paths in those of some members that are called `properties`. -/
def memberPaths (parent : Option String) : List (String × Json) → List String
  | [] => []
  | (key, json) :: rest =>
      (if key = "properties" then tablePaths parent json else []) ++ memberPaths parent rest

/-- The paths of the entries of a table of properties. -/
def tablePaths (parent : Option String) : Json → List String
  | object entries => entryPaths parent entries
  | _ => []

/-- The path of each entry and those in the mapping that it has. -/
def entryPaths (parent : Option String) : List (String × Json) → List String
  | [] => []
  | (name, json) :: rest =>
      Path.join parent name :: propertyPaths (some (Path.join parent name)) json
        ++ entryPaths parent rest

end

/-- The paths of entries are those of each of them, in order. -/
theorem entryPaths_eq_flatMap (parent : Option String) (entries : List (String × Json)) :
    entryPaths parent entries = entries.flatMap fun entry =>
      Path.join parent entry.1 :: propertyPaths (some (Path.join parent entry.1)) entry.2 := by
  induction entries with
  | nil => rfl
  | cons entry entries ih => rw [entryPaths, List.flatMap_cons, ih]

/-- The order of the entries only matters for the order of the paths. -/
theorem perm_entryPaths (parent : Option String) {entries others : List (String × Json)}
    (h : entries.Perm others) : (entryPaths parent entries).Perm (entryPaths parent others) := by
  rw [entryPaths_eq_flatMap, entryPaths_eq_flatMap]
  exact h.flatMap_right _

/-- An option with another key has no entries. -/
theorem memberPaths_member?_append (parent : Option String) {key : String} (h : key ≠ "properties")
    (value : Option Json) (rest : List (String × Json)) :
    memberPaths parent (member? key value ++ rest) = memberPaths parent rest := by
  cases value with
  | none => rfl
  | some value => simp [member?, memberPaths, h]

end Json

/-- The mapping of a value field has no entries. -/
theorem FieldType.propertyPaths_mapping (type : FieldType) (parent : Option String) :
    type.mapping.propertyPaths parent = [] := by
  simp only [mapping, Json.propertyPaths, List.append_assoc]
  rw [Json.memberPaths_member?_append _ (by decide), Json.memberPaths_member?_append _ (by decide),
    Json.memberPaths_member?_append _ (by decide), Json.memberPaths_member?_append _ (by decide),
    Json.memberPaths_member?_append _ (by decide)]
  rfl

namespace Definition

/-- The properties of some definitions have the names of the definitions. -/
theorem exists_name_of_mem_properties {definitions : List Definition} {entry : String × Json}
    (h : entry ∈ properties definitions) : entry.1 ∈ definitions.map name := by
  induction definitions with
  | nil => exact absurd h List.not_mem_nil
  | cons definition rest ih =>
      rcases Json.eq_or_mem_of_mem_put h with rfl | hrest
      · exact List.mem_cons_self
      · exact List.mem_cons_of_mem _ (ih hrest)

mutual

/-- The paths in the mapping of a definition, and its own, are those of the fields that it declares.
They come in another order, since the properties of an object are sorted by name. -/
theorem perm_propertyPaths_mapping (parent : Option String) (hierarchy : List String) :
    ∀ definition : Definition, WellNamed definition →
      (Path.join parent definition.name
          :: definition.mapping.propertyPaths (some (Path.join parent definition.name))).Perm
        ((describe parent hierarchy definition).map Descriptor.path)
  | value name type multiValued, _ => by
      rw [mapping, type.propertyPaths_mapping]
      exact List.Perm.refl _
  | object name layout multiValued children, h => by
      -- The properties are the only member of the mapping with entries.
      have hmapping : ∀ parent, (mapping (object name layout multiValued children)).propertyPaths
          parent = Json.entryPaths parent (properties children) := fun parent => by
        simp [mapping, Json.propertyPaths, Json.memberPaths, Json.tablePaths]
      rw [hmapping]
      exact (perm_entryPaths_properties _ _ children h.2).cons _

/-- The properties of definitions have one entry for each of their fields. -/
theorem perm_entryPaths_properties (parent : Option String) (hierarchy : List String) :
    ∀ definitions : List Definition, AllWellNamed definitions →
      (Json.entryPaths parent (properties definitions)).Perm
        ((describeAll parent hierarchy definitions).map Descriptor.path)
  | [], _ => List.Perm.refl _
  | definition :: rest, h => by
      -- The name is none of those that the properties of the rest have already.
      have hnew : ∀ entry ∈ properties rest, entry.1 ≠ definition.name := fun entry hentry heq =>
        h.2.1 (heq ▸ exists_name_of_mem_properties hentry)
      have hput : (properties (definition :: rest)).Perm
          ((definition.name, definition.mapping) :: properties rest) := Json.perm_put hnew
      rw [describeAll, List.map_append]
      exact (Json.perm_entryPaths parent hput).trans
        ((perm_propertyPaths_mapping parent hierarchy definition h.1).append
          (perm_entryPaths_properties parent hierarchy rest h.2.2))

end

end Definition

namespace Index

open Definition (Node nodesAll AllAccepted)

/-! ### An index and its definitions -/

/-- An index knows each node of some definitions once, and describes it by what it is in the
tree. -/
structure Describes (index : Index) (definitions : List Definition) : Prop where
  /-- There is one descriptor for each node. -/
  fields : index.fields = (nodesAll [] definitions).map Node.descriptor
  /-- Different nodes have different paths. -/
  distinct : ((nodesAll [] definitions).map Node.path).Nodup
  /-- The descriptor of a node is found at its path, and nothing else is found anywhere. -/
  found : ∀ path field, index.field? path = some field ↔
    ∃ node ∈ nodesAll [] definitions, node.path = path ∧ node.descriptor = field
  /-- The hierarchies pass the check for chains of nested paths. -/
  chain : ∀ node ∈ nodesAll [] definitions, Path.checkChain node.hierarchy = .ok ()
  /-- The paths are listed in strictly increasing order. -/
  increasing : index.fieldPaths.Pairwise (· < ·)
  /-- The paths that are listed are those of the nodes. -/
  listed : index.fieldPaths.Perm ((nodesAll [] definitions).map Node.path)
  /-- The mapping has one entry at the path of each node and no other entries. -/
  mapped : (index.mapping.propertyPaths none).Perm ((nodesAll [] definitions).map Node.path)

variable {index : Index}

/-- The fields of an index are the descriptors of its nodes. -/
theorem fields_eq_map_descriptor (index : Index) :
    index.fields = (nodesAll [] index.definitions).map Node.descriptor :=
  Definition.describeAll_eq_map_descriptor [] index.definitions

/-- The paths of the fields are those of the nodes. -/
theorem map_path_fields (index : Index) :
    index.fields.map Descriptor.path = (nodesAll [] index.definitions).map Node.path := by
  rw [fields_eq_map_descriptor, List.map_map]
  rfl

/-- An index describes the definitions that it has. -/
theorem describes (index : Index) : index.Describes index.definitions := by
  have hdistinct : (index.fields.map Descriptor.path).Nodup :=
    Definition.nodup_describeAll none [] index.definitions index.allWellNamed
  have hmem : ∀ field, field ∈ index.fields ↔
      ∃ node ∈ nodesAll [] index.definitions, node.descriptor = field := fun field => by
    rw [fields_eq_map_descriptor, List.mem_map]
  have hfound : ∀ path field, index.field? path = some field ↔
      ∃ node ∈ nodesAll [] index.definitions, node.path = path ∧ node.descriptor = field := by
    intro path field
    rw [field?_eq_some_iff, hmem]
    constructor
    · rintro ⟨⟨node, hnode, rfl⟩, rfl⟩
      exact ⟨node, hnode, rfl, rfl⟩
    · rintro ⟨node, hnode, rfl, rfl⟩
      exact ⟨⟨node, hnode, rfl⟩, rfl⟩
  -- The mapping of the index has the properties and nothing besides.
  have hmapping : index.mapping.propertyPaths none
      = Json.entryPaths none (Definition.properties index.definitions) := by
    simp [mapping, Json.single, Json.propertyPaths, Json.memberPaths, Json.tablePaths]
  refine
    { fields := index.fields_eq_map_descriptor
      distinct := index.map_path_fields ▸ hdistinct
      found := hfound
      chain := fun node hnode => ?_
      increasing := Text.pairwise_lt_sorted hdistinct
      listed := index.map_path_fields ▸ Text.perm_sorted _
      mapped := ?_ }
  · -- What is found has a hierarchy that is a chain, and a node is found at its path.
    have henclosed := field?_hierarchy ((hfound _ _).mpr ⟨node, hnode, rfl, rfl⟩)
    exact Path.checkChain_eq_ok_iff.mpr henclosed.chain
  · rw [hmapping, ← index.map_path_fields]
    exact Definition.perm_entryPaths_properties none [] index.definitions index.allWellNamed

/-- An index made from definitions has the name and the definitions that it was made from. -/
theorem ofDefinitions_eq_ok_iff {name : String} {definitions : List Definition} :
    ofDefinitions name definitions = .ok index ↔
      index.name = name ∧ index.definitions = definitions := by
  unfold ofDefinitions
  constructor
  · intro h
    split at h
    · simp at h
    · split at h
      · obtain rfl := Except.ok.inj h
        exact ⟨rfl, rfl⟩
      · simp at h
  · rintro ⟨rfl, rfl⟩
    rw [dif_neg index.name_ne]
    split
    · rfl
    · next hcheck => simp [index.checked] at hcheck

/-- Definitions make an index exactly if the name is not empty and nothing is wrong with any node.
The index has these definitions and describes them. It is what entering them into one table gives,
with the same error if they are refused. -/
theorem ofDefinitions_describes (name : String) (definitions : List Definition) :
    ((∃ index, ofDefinitions name definitions = .ok index) ↔
      name ≠ "" ∧ AllAccepted definitions) ∧
    (∀ index, ofDefinitions name definitions = .ok index →
      index.name = name ∧ index.definitions = definitions ∧ index.Describes definitions) ∧
    (name ≠ "" → (ofDefinitions name definitions).map Index.fields
      = Definition.registerAll none [] [] definitions) := by
  have hchecked : Definition.checkAll none [] definitions = .ok () ↔ AllAccepted definitions := by
    rw [show (none : Option String) = Definition.parentPath [] from rfl,
      Definition.checkAll_eq_ok_iff]
    exact ⟨fun h => ⟨h.2.1, h.2.2⟩,
      fun h => ⟨fun _ _ => List.not_mem_nil, h.siblings, h.nodes⟩⟩
  refine ⟨?_, fun index h => ?_, fun hname => fields_ofDefinitions hname definitions⟩
  · rw [← hchecked]
    constructor
    · rintro ⟨index, h⟩
      obtain ⟨rfl, rfl⟩ := ofDefinitions_eq_ok_iff.mp h
      exact ⟨index.name_ne, index.checked⟩
    · rintro ⟨hname, hcheck⟩
      exact ⟨⟨name, definitions, hname, hcheck⟩, ofDefinitions_eq_ok_iff.mpr ⟨rfl, rfl⟩⟩
  · obtain ⟨rfl, rfl⟩ := ofDefinitions_eq_ok_iff.mp h
    exact ⟨rfl, rfl, index.describes⟩

/-- The books of a library. The homes of the authors belong to the documents of the authors. -/
def books : List Definition :=
  [.value "title" { kind := .text } false,
    .object "authors" .nested true
      [.object "home" .flattened false [.value "city" { kind := .keyword } false]]]

/-- The fields of a library in order, with a flattened object inside a nested one. -/
theorem ofDefinitions_describes_books :
    "library" ≠ "" ∧ ∃ index, ofDefinitions "library" books = .ok index ∧ index.Describes books ∧
      Definition.registerAll none [] [] books = .ok index.fields ∧
      index.fields.map (fun field => (field.path, field.hierarchy))
        = [("title", []), ("authors", ["authors"]), ("authors.home", ["authors"]),
          ("authors.home.city", ["authors"])] := by
  obtain ⟨-, hdescribes, htable⟩ := ofDefinitions_describes "library" books
  have hname : "library" ≠ "" := by decide
  have hindex : ofDefinitions "library" books = .ok ⟨"library", books, hname, rfl⟩ := rfl
  exact ⟨hname, _, hindex, (hdescribes _ hindex).2.2, (htable hname).symm, rfl⟩

end Index

end SearchDsl
