import SearchDsl.Projection

/-!
# `SearchDsl.Proofs.Json.Nodes`: the values at a path of a document

Looking for the values at a path is one recursion over the document, in which names are used up and
arrays are entered as they come. Without that interplay it is this: a value stands for its nodes,
which are the values in it that are neither arrays nor null, outside of objects (`Json.nodes`), and
a name leads from nodes to those of their members (`Json.follow`). `Projection.collect_eq_follow`
says that both find the same values, in the same order.
-/

set_option autoImplicit false

namespace SearchDsl.Json

mutual

/-- The nodes that a value stands for: an array stands for those of its items, and null for none. -/
def nodes : Json → List Json
  | array items => itemNodes items
  | null => []
  | object members => [object members]
  | bool b => [bool b]
  | int n => [int n]
  | double x => [double x]
  | string s => [string s]

/-- The nodes that several values stand for. -/
def itemNodes : List Json → List Json
  | [] => []
  | item :: rest => nodes item ++ itemNodes rest

end

/-- The nodes of two lists of items are those of both, in order. -/
theorem itemNodes_append (items more : List Json) :
    itemNodes (items ++ more) = itemNodes items ++ itemNodes more := by
  induction items with
  | nil => rfl
  | cons item items ih => rw [List.cons_append, itemNodes, itemNodes, ih, List.append_assoc]

/-- A value that is neither an array nor null. -/
def IsNode (value : Json) : Prop := value ≠ null ∧ ∀ items, value ≠ array items

mutual

/-- What is left of a value when its arrays are opened is neither an array nor null. -/
theorem isNode_of_mem_nodes : ∀ {value node : Json}, node ∈ value.nodes → node.IsNode
  | array _, _, h => isNode_of_mem_itemNodes h
  | null, _, h => absurd h List.not_mem_nil
  | object _, _, h | bool _, _, h | int _, _, h | double _, _, h | string _, _, h => by
      rw [List.mem_singleton.mp h]
      simp [IsNode]

/-- What is left of the items of an array is neither an array nor null. -/
theorem isNode_of_mem_itemNodes : ∀ {items : List Json} {node : Json},
    node ∈ itemNodes items → node.IsNode
  | [], _, h => absurd h List.not_mem_nil
  | _ :: _, _, h => (List.mem_append.mp h).elim isNode_of_mem_nodes isNode_of_mem_itemNodes

end

/-- The nodes that a value stands for, if there is one. -/
def nodes? (value : Option Json) : List Json := (value.map nodes).getD []

/-- A value that is missing leaves nothing, and of any other one only such nodes are left. -/
theorem isNode_of_mem_nodes? {value : Option Json} {node : Json} (h : node ∈ nodes? value) :
    node.IsNode := by
  cases value with
  | none => exact absurd h List.not_mem_nil
  | some value => exact isNode_of_mem_nodes h

/-- The nodes that a path of names leads to. -/
def follow : List String → List Json → List Json
  | [], found => found
  | name :: names, found => follow names (found.flatMap fun node => nodes? (node.get? name))

/-- Names are followed from each of the nodes by itself. -/
theorem follow_append (names : List String) (first others : List Json) :
    follow names (first ++ others) = follow names first ++ follow names others := by
  induction names generalizing first others with
  | nil => rfl
  | cons name names ih => rw [follow, follow, follow, List.flatMap_append, ih]

/-- Nothing leads further from no nodes. -/
theorem follow_nil (names : List String) : follow names [] = [] := by
  induction names with
  | nil => rfl
  | cons name names ih => rw [follow, List.flatMap_nil, ih]

/-- From a single node a name leads to the member. -/
theorem follow_cons_singleton (name : String) (names : List String) (node : Json) :
    follow (name :: names) [node] = follow names (nodes? (node.get? name)) := by
  rw [follow, List.flatMap_singleton]

/-- A path leads from nodes to nodes. -/
theorem isNode_of_mem_follow {names : List String} {found : List Json} {node : Json}
    (hfound : ∀ start ∈ found, start.IsNode) (h : node ∈ follow names found) : node.IsNode := by
  induction names generalizing found with
  | nil => exact hfound node h
  | cons name names ih =>
      refine ih (fun start hstart => ?_) h
      obtain ⟨parent, -, hmember⟩ := List.mem_flatMap.mp hstart
      exact isNode_of_mem_nodes? hmember

end SearchDsl.Json

namespace SearchDsl.Projection

/-- A node without members is a value at the end of a path and leads nowhere. -/
theorem leaf_eq_follow {node : Json} (h : ∀ name, node.get? name = none) (names : List String) :
    collect.leaf names node = Json.follow names [node] := by
  cases names with
  | nil => rfl
  | cons name names =>
      rw [Json.follow_cons_singleton, h name]
      exact (Json.follow_nil names).symm

mutual

/-- Both ways of looking for the values at a path find the same. -/
theorem collect_eq_follow (names : List String) :
    ∀ json : Json, collect names json = Json.follow names json.nodes
  | .array items => collectItems_eq_follow names items
  | .null => (Json.follow_nil names).symm
  | .object members =>
      match names with
      | [] => rfl
      | name :: rest => by
          rw [Json.nodes, Json.follow_cons_singleton]
          exact collectMember_eq_follow name rest members
  | .bool b => leaf_eq_follow (fun _ => rfl) names
  | .int n => leaf_eq_follow (fun _ => rfl) names
  | .double x => leaf_eq_follow (fun _ => rfl) names
  | .string s => leaf_eq_follow (fun _ => rfl) names

/-- Collecting from the items of an array follows the names from their nodes. -/
theorem collectItems_eq_follow (names : List String) :
    ∀ items : List Json, collectItems names items = Json.follow names (Json.itemNodes items)
  | [] => (Json.follow_nil names).symm
  | item :: rest => by
      rw [collectItems, Json.itemNodes, Json.follow_append, collect_eq_follow names item,
        collectItems_eq_follow names rest]

/-- Collecting from the members of an object follows the names from the member that is named
first. -/
theorem collectMember_eq_follow (name : String) (names : List String) :
    ∀ members : List (String × Json), collectMember name names members
      = Json.follow names (Json.nodes? (Json.find? name members))
  | [] => (Json.follow_nil names).symm
  | (key, value) :: rest => by
      rw [collectMember, Json.find?]
      split
      · exact collect_eq_follow names value
      · exact collectMember_eq_follow name names rest

end

/-- The values at a path of a hit are what the names of the path lead to from its document. -/
theorem valuesAt_eq_follow (path : String) (hit : Json) :
    valuesAt path hit = Json.follow (Path.segments path) (Json.nodes? (hit.get? "_source")) := by
  unfold valuesAt
  cases hit.get? "_source" with
  | none => exact (Json.follow_nil _).symm
  | some document => exact collect_eq_follow _ document

end SearchDsl.Projection
