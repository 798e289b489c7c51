import Mathlib.Data.List.Infix
import SearchDsl.Proofs.Schema.Nesting

/-!
# `SearchDsl.Proofs.Schema.Nodes`: the definitions of an index as a tree

A node is a definition together with the objects that it stands in. What an index says of a field
can be read off its node: the path is made of the names on the way to it, and the hierarchy of the
paths of the nested objects that the way comes through (`Node.descriptor`). Describing definitions
passes a parent path and a hierarchy down instead; it makes one descriptor of each node, in the
same order (`describeAll_eq_map_descriptor`).

In the same way the checks, which stop at the first thing that is wrong, come to a condition on each
node by itself and on the names of siblings (`checkAll_eq_ok_iff`).
-/

set_option autoImplicit false

namespace SearchDsl

namespace Definition

/-- A field is a value of some type or an object with some layout. -/
def shape : Definition → FieldShape
  | value _ type _ => .value type
  | object _ layout _ _ => .object layout

/-- Whether a field may have several values. -/
def multiValued : Definition → Bool
  | value _ _ multiValued => multiValued
  | object _ _ multiValued _ => multiValued

/-- What is declared in a field, nothing in a value. -/
def children : Definition → List Definition
  | value .. => []
  | object _ _ _ children => children

/-- A definition with the objects that it stands in, outermost first. -/
structure Node where
  around : List Definition
  definition : Definition

mutual

/-- A definition and everything below it, each with what is around it. -/
def nodes (around : List Definition) : Definition → List Node
  | value name type multiValued => [⟨around, value name type multiValued⟩]
  | object name layout multiValued children =>
      let self := object name layout multiValued children
      ⟨around, self⟩ :: nodesAll (around ++ [self]) children

/-- The nodes of several definitions, in order. -/
def nodesAll (around : List Definition) : List Definition → List Node
  | [] => []
  | definition :: rest => nodes around definition ++ nodesAll around rest

end

/-! ### Paths and nested objects on the way -/

/-- The names of some definitions with dots between them. -/
def dotted (way : List Definition) : String := ".".intercalate (way.map name)

/-- Whether a way leads to a nested object. -/
def endsNested (way : List Definition) : Bool :=
  way.getLast?.any fun last => last.shape = .object .nested

/-- The paths of the nested objects on a way, outermost first: those of the initial parts that lead
to a nested object. -/
def nestedPaths (way : List Definition) : List String := (way.inits.filter endsNested).map dotted

/-- The path of an object that is left out at the top. -/
def parentPath (around : List Definition) : Option String := Path.descend none (around.map name)

/-- One step further down the path is joined with the name of the step. -/
theorem parentPath_concat (around : List Definition) (definition : Definition) :
    parentPath (around ++ [definition])
      = some (Path.join (parentPath around) definition.name) := by
  rw [parentPath, List.map_append, List.map_singleton, Path.descend_concat]
  rfl

/-- The path of an object is the parent path of what is declared in it. -/
theorem parentPath_concat_object (around : List Definition) (name : String)
    (layout : ObjectLayout) (multiValued : Bool) (children : List Definition) :
    parentPath (around ++ [object name layout multiValued children])
      = some (Path.join (parentPath around) name) := parentPath_concat _ _

/-- The names on a way with dots between them are the path that is joined step by step. -/
theorem dotted_concat (around : List Definition) (definition : Definition) :
    dotted (around ++ [definition]) = Path.join (parentPath around) definition.name := by
  obtain ⟨first, rest, hway⟩ :=
    List.exists_cons_of_ne_nil (List.concat_ne_nil definition around)
  -- Joining one name after the other puts a dot between any two of them.
  have hdots : parentPath (around ++ [definition]) = some (dotted (around ++ [definition])) := by
    rw [hway]
    exact Path.descend_eq_intercalate first.name (rest.map name)
  exact Option.some.inj (hdots.symm.trans (parentPath_concat around definition))

/-- A nested object adds its own path. -/
theorem nestedPaths_concat (around : List Definition) (definition : Definition) :
    nestedPaths (around ++ [definition]) = nestedPaths around ++
      if definition.shape = .object .nested then [dotted (around ++ [definition])] else [] := by
  -- The only initial part that is new is the whole way.
  have hinits : (around ++ [definition]).inits = around.inits ++ [around ++ [definition]] := by
    simp [List.inits_append]
  rw [nestedPaths, hinits, List.filter_append, List.map_append, ← nestedPaths]
  by_cases hshape : definition.shape = .object .nested
  · simp [endsNested, hshape]
  · simp [endsNested, hshape]

/-- A value adds no nested object. -/
theorem nestedPaths_concat_value (around : List Definition) (name : String) (type : FieldType)
    (multiValued : Bool) :
    nestedPaths (around ++ [value name type multiValued]) = nestedPaths around := by
  rw [nestedPaths_concat, if_neg (by simp [shape]), List.append_nil]

/-- An object adds the level that it puts around what is declared in it. -/
theorem nestedPaths_concat_object (around : List Definition) (name : String)
    (layout : ObjectLayout) (multiValued : Bool) (children : List Definition) :
    nestedPaths (around ++ [object name layout multiValued children])
      = enclose layout (Path.join (parentPath around) name) (nestedPaths around) := by
  rw [nestedPaths_concat, dotted_concat]
  cases layout with
  | flattened => exact List.append_nil _
  | nested => rfl

/-! ### Descriptors -/

namespace Node

/-- The objects around a definition and the definition itself. -/
def way (node : Node) : List Definition := node.around ++ [node.definition]

/-- The absolute path: the names from the top, with dots between them. -/
def path (node : Node) : String := dotted node.way

/-- The absolute paths of the nested objects around a definition, outermost first. The last one of a
nested object is its own. -/
def hierarchy (node : Node) : List String := nestedPaths node.way

/-- The path of a node is joined from the parent path and its own name. -/
theorem path_eq_join (around : List Definition) (definition : Definition) :
    path ⟨around, definition⟩ = Path.join (parentPath around) definition.name :=
  dotted_concat around definition

/-- The field that a node declares. -/
def descriptor (node : Node) : Descriptor where
  path := node.path
  name := node.definition.name
  shape := node.definition.shape
  multiValued := node.definition.multiValued
  hierarchy := node.hierarchy

end Node

mutual

/-- Describing a definition makes one descriptor of each node in it. -/
theorem describe_eq_map_descriptor (around : List Definition) : ∀ definition : Definition,
    describe (parentPath around) (nestedPaths around) definition
      = (nodes around definition).map Node.descriptor
  | value name type multiValued => by
      rw [describe, nodes, List.map_singleton, Node.descriptor, Node.path_eq_join, Node.hierarchy,
        Node.way, nestedPaths_concat_value]
      rfl
  | object name layout multiValued children => by
      -- One step down, parent path and hierarchy are those that describing passes to the children.
      have hbelow :=
        describeAll_eq_map_descriptor (around ++ [object name layout multiValued children]) children
      rw [parentPath_concat_object, nestedPaths_concat_object] at hbelow
      rw [describe, nodes, List.map_cons, ← hbelow, Node.descriptor, Node.path_eq_join,
        Node.hierarchy, Node.way, nestedPaths_concat_object]
      rfl

/-- Describing definitions makes one descriptor of each node. -/
theorem describeAll_eq_map_descriptor (around : List Definition) :
    ∀ definitions : List Definition,
      describeAll (parentPath around) (nestedPaths around) definitions
        = (nodesAll around definitions).map Node.descriptor
  | [] => rfl
  | definition :: rest => by
      rw [describeAll, nodesAll, List.map_append, describe_eq_map_descriptor around definition,
        describeAll_eq_map_descriptor around rest]

end

/-! ### Checks -/

/-- Nothing is wrong with a node by itself: its name can be given to a field, the options of its
type make sense if it is a value, and no name is given twice to what is declared in it. -/
structure Node.Accepted (node : Node) : Prop where
  name_ne : node.definition.name ≠ ""
  dot_not_mem : '.' ∉ node.definition.name.toList
  type : ∀ type, node.definition.shape = .value type → type.check node.path = .ok ()
  children : (node.definition.children.map name).Nodup

/-- Nothing is wrong with some definitions and everything below them. -/
structure AllAccepted (definitions : List Definition) : Prop where
  siblings : (definitions.map name).Nodup
  nodes : ∀ node ∈ nodesAll [] definitions, node.Accepted

/-- A value is accepted if its name and the options of its type are valid. -/
theorem accepted_value_iff {around : List Definition} {name : String} {type : FieldType}
    {multiValued : Bool} : Node.Accepted ⟨around, value name type multiValued⟩ ↔
      isValidName name = true ∧ type.check (Path.join (parentPath around) name) = .ok () := by
  have hpath := Node.path_eq_join around (value name type multiValued)
  rw [isValidName_iff]
  constructor
  · exact fun h => ⟨⟨h.name_ne, h.dot_not_mem⟩, hpath ▸ h.type type rfl⟩
  · rintro ⟨⟨hne, hdot⟩, htype⟩
    refine ⟨hne, hdot, fun other hother => ?_, List.nodup_nil⟩
    obtain rfl := FieldShape.value.inj hother
    exact hpath ▸ htype

/-- An object is accepted if its name is valid and its children have different names. -/
theorem accepted_object_iff {around : List Definition} {name : String} {layout : ObjectLayout}
    {multiValued : Bool} {children : List Definition} :
    Node.Accepted ⟨around, object name layout multiValued children⟩ ↔
      isValidName name = true ∧ (children.map Definition.name).Nodup := by
  rw [isValidName_iff]
  constructor
  · exact fun h => ⟨⟨h.name_ne, h.dot_not_mem⟩, h.children⟩
  · rintro ⟨⟨hne, hdot⟩, hnodup⟩
    exact ⟨hne, hdot, fun other hother => by simp [shape] at hother, hnodup⟩

mutual

/-- A definition passes if its name is new and all nodes in it are accepted. -/
theorem check_eq_ok_iff (around : List Definition) (before : List String) :
    ∀ definition : Definition, check (parentPath around) before definition = .ok () ↔
      definition.name ∉ before ∧ ∀ node ∈ nodes around definition, node.Accepted
  | value name type multiValued => by
      rw [check, Steps.check_eq_ok_iff, checkName_eq_ok_iff, nodes, List.forall_mem_singleton,
        accepted_value_iff]
      show _ ↔ name ∉ before ∧ _
      tauto
  | object name layout multiValued children => by
      -- No names come before those of the children, so all of them are new.
      have hbelow :=
        checkAll_eq_ok_iff (around ++ [object name layout multiValued children]) [] children
      rw [parentPath_concat_object] at hbelow
      rw [check, Steps.check_eq_ok_iff, checkName_eq_ok_iff, hbelow, nodes, List.forall_mem_cons,
        accepted_object_iff]
      show _ ↔ name ∉ before ∧ _
      simp only [List.not_mem_nil, not_false_eq_true, implies_true, true_and]
      tauto

/-- Definitions pass their checks if their names are new and distinct and each node is accepted. -/
theorem checkAll_eq_ok_iff (around : List Definition) (before : List String) :
    ∀ definitions : List Definition, checkAll (parentPath around) before definitions = .ok () ↔
      (∀ definition ∈ definitions, definition.name ∉ before) ∧ (definitions.map name).Nodup ∧
        ∀ node ∈ nodesAll around definitions, node.Accepted
  | [] => by simp [checkAll, nodesAll]
  | definition :: rest => by
      rw [checkAll, Steps.check_eq_ok_iff, check_eq_ok_iff around before definition,
        checkAll_eq_ok_iff around (definition.name :: before) rest, nodesAll,
        List.forall_mem_append, List.forall_mem_cons, List.map_cons, List.nodup_cons]
      -- A later name is new if it is neither one of those before nor the first one.
      have hlater : (∀ other ∈ rest, other.name ∉ definition.name :: before) ↔
          (∀ other ∈ rest, other.name ∉ before) ∧ definition.name ∉ rest.map name := by
        simp only [List.mem_cons, not_or, List.mem_map, not_exists, not_and]
        exact ⟨fun h => ⟨fun other hother => (h other hother).2,
            fun other hother heq => (h other hother).1 heq⟩,
          fun h other hother => ⟨fun heq => h.2 other hother heq, h.1 other hother⟩⟩
      rw [hlater]
      tauto

end

end Definition

end SearchDsl
