import Mathlib.Logic.Relation
import SearchDsl.Proofs.Json.Nodes

/-!
# `SearchDsl.Proofs.Projection.Values`: what a field projection makes of a document

A document can hold a value at a path in many forms. A value may stand in an array of its own or in
several around each other, and nulls and empty arrays may stand next to it. A member that is absent
may be null instead. The projection of a field is about the nodes that the path leads to
(`Projection.reached`), which do not depend on the form.

* `Json.Edit` is one change of the form anywhere on the way along the path. `Json.Edit.follow_eq`
  says that the path leads to the same nodes afterwards.
* `Projection.extract_field_reached` says how many nodes there have to be and what becomes of them,
  and that hits that are edits apart are projected to the same result.
-/

set_option autoImplicit false

namespace SearchDsl

/-! ### Edits -/

namespace Json

/-- One edit of a value, which may be absent, on the way that a path of names leads from it. -/
inductive Edit : List String → Option Json → Option Json → Prop
  /-- A value is put into an array of its own. -/
  | wrap (names : List String) (value : Json) : Edit names (some value) (some (.array [value]))
  /-- An array in an array is replaced by its items. -/
  | flatten (names : List String) (before inner after : List Json) :
      Edit names (some (.array (before ++ array inner :: after)))
        (some (.array (before ++ (inner ++ after))))
  | insertNull (names : List String) (before after : List Json) :
      Edit names (some (.array (before ++ after))) (some (.array (before ++ null :: after)))
  | insertEmpty (names : List String) (before after : List Json) :
      Edit names (some (.array (before ++ after))) (some (.array (before ++ array [] :: after)))
  /-- An absent value is made null. -/
  | absent (names : List String) : Edit names none (some .null)
  /-- An item of an array is edited. -/
  | item {names : List String} {value edited : Json} (before after : List Json)
      (h : Edit names (some value) (some edited)) :
      Edit names (some (.array (before ++ value :: after)))
        (some (.array (before ++ edited :: after)))
  /-- The member of an object that the path goes on to is edited. -/
  | member {name : String} {names : List String} {members others : List (String × Json)}
      (h : Edit names (find? name members) (find? name others)) :
      Edit (name :: names) (some (.object members)) (some (.object others))
  /-- The member that the path goes on to stays, and all others become anything. -/
  | others {name : String} {names : List String} {members others : List (String × Json)}
      (h : find? name members = find? name others) :
      Edit (name :: names) (some (.object members)) (some (.object others))

/-- An edit does not change what the path leads to. -/
theorem Edit.follow_eq {names : List String} {value edited : Option Json}
    (h : Edit names value edited) : follow names (nodes? value) = follow names (nodes? edited) := by
  -- Inside arrays the nodes themselves are the same, but below a name they may not be.
  induction h with
  | wrap names value => simp [nodes?, nodes, itemNodes]
  | flatten names before inner after =>
      simp [nodes?, nodes, itemNodes_append, itemNodes]
  | insertNull names before after =>
      simp [nodes?, nodes, itemNodes_append, itemNodes]
  | insertEmpty names before after =>
      simp [nodes?, nodes, itemNodes_append, itemNodes]
  | absent names => rfl
  | @item names value edited before after h ih =>
      have hitem : follow names value.nodes = follow names edited.nodes := ih
      show follow names (itemNodes _) = follow names (itemNodes _)
      simp only [itemNodes_append, itemNodes, follow_append, hitem]
  | member h ih =>
      show follow _ [_] = follow _ [_]
      rw [follow_cons_singleton, follow_cons_singleton]
      exact ih
  | others h =>
      show follow _ [_] = follow _ [_]
      rw [follow_cons_singleton, follow_cons_singleton, get?, get?, h]

end Json

/-! ### Field projections -/

/-- A value is decoded, or it is refused as invalid. -/
theorem FieldKind.decode_eq_error_iff {kind : FieldKind} {field : String} {json : Json}
    {e : Error} : kind.decode field json = .error e ↔
      kind.decode? json = none ∧ e = .response (.invalidValue field kind json) := by
  unfold decode
  cases kind.decode? json <;> simp [eq_comm]

namespace Projection

/-- The nodes that a path leads to from the document of a hit. -/
def reached (path : String) (hit : Json) : List Json :=
  Json.follow (Path.segments path) (Json.nodes? (hit.get? "_source"))

/-- These are the values that a field projection finds. -/
theorem valuesAt_eq_reached (path : String) (hit : Json) :
    valuesAt path hit = reached path hit :=
  valuesAt_eq_follow path hit

/-- One of two hits is an edit of the other on the way along the path, or they have the same
document. -/
def Edited (path : String) (hit edited : Json) : Prop :=
  hit.get? "_source" = edited.get? "_source" ∨
    Json.Edit (Path.segments path) (hit.get? "_source") (edited.get? "_source")

/-- An edit off the nodes of a path leaves them as they are. -/
theorem Edited.reached_eq {path : String} {hit edited : Json} (h : Edited path hit edited) :
    reached path hit = reached path edited := by
  rcases h with hsame | hedit
  · rw [reached, reached, hsame]
  · exact hedit.follow_eq

/-- Any number of edits, in either direction, leave the nodes as they are. -/
theorem reached_eq_of_eqvGen {path : String} {hit edited : Json}
    (h : Relation.EqvGen (Edited path) hit edited) : reached path hit = reached path edited := by
  induction h with
  | rel hit edited hedited => exact hedited.reached_eq
  | refl hit => rfl
  | symm hit edited h ih => exact ih.symm
  | trans hit edited next h hnext ih ihnext => exact ih.trans ihnext

section Extract

variable {path : String} {kind : FieldKind} {hit : Json}

/-- What becomes of no node, of one and of several. -/
theorem extract_field_cases (path : String) (kind : FieldKind) (hit : Json) :
    (reached path hit = [] ∧ extract hit (field path kind) = .ok (.field none)) ∨
    (∃ node, reached path hit = [node] ∧ extract hit (field path kind)
      = (kind.decode path node).map fun value => .field (some value)) ∨
    1 < (reached path hit).length ∧ extract hit (field path kind)
      = .error (.response (.severalValues path (reached path hit).length)) := by
  rcases hreached : reached path hit with _ | ⟨node, _ | ⟨second, rest⟩⟩
  · rw [extract, valuesAt_eq_reached, hreached]
    exact .inl ⟨rfl, rfl⟩
  · rw [extract, valuesAt_eq_reached, hreached]
    exact .inr (.inl ⟨node, rfl, rfl⟩)
  · rw [extract, valuesAt_eq_reached, hreached]
    exact .inr (.inr ⟨Nat.succ_lt_succ (Nat.succ_pos _), rfl⟩)

/-- No value is returned exactly if no node is reached. -/
theorem extract_field_eq_none_iff :
    extract hit (field path kind) = .ok (.field none) ↔ reached path hit = [] := by
  rcases extract_field_cases path kind hit with ⟨hnil, h⟩ | ⟨node, hnode, h⟩ | ⟨hseveral, h⟩
  · exact iff_of_true h hnil
  · rw [h, hnode]
    cases kind.decode path node <;> simp [Except.map]
  · rw [h]
    refine iff_of_false nofun fun hnil => ?_
    simp [hnil] at hseveral

/-- A value is returned exactly if one node is reached, and it is what the node decodes to. -/
theorem extract_field_eq_some_iff {value : FieldValue} :
    extract hit (field path kind) = .ok (.field (some value)) ↔
      ∃ node, reached path hit = [node] ∧ kind.decode path node = .ok value := by
  rcases extract_field_cases path kind hit with ⟨hnil, h⟩ | ⟨node, hnode, h⟩ | ⟨hseveral, h⟩
  · simp [h, hnil]
  · rw [h, hnode]
    cases hdecode : kind.decode path node <;> simp [hdecode, Except.map]
  · rw [h]
    refine iff_of_false nofun ?_
    rintro ⟨node, hnode, -⟩
    simp [hnode] at hseveral

/-- A field projection fails exactly on one node that does not decode and on several nodes. -/
theorem extract_field_eq_error_iff {e : Error} :
    extract hit (field path kind) = .error e ↔
      (∃ node, reached path hit = [node] ∧ kind.decode path node = .error e) ∨
      1 < (reached path hit).length ∧
        e = .response (.severalValues path (reached path hit).length) := by
  rcases extract_field_cases path kind hit with ⟨hnil, h⟩ | ⟨node, hnode, h⟩ | ⟨hseveral, h⟩
  · simp [h, hnil]
  · rw [h, hnode]
    cases hdecode : kind.decode path node <;> simp [hdecode, Except.map]
  · rw [h]
    constructor
    · intro heq
      exact .inr ⟨hseveral, (Except.error.inj heq).symm⟩
    · rintro (⟨node, hnode, -⟩ | ⟨-, rfl⟩)
      · simp [hnode] at hseveral
      · rfl

/-- The error for several values comes from nowhere else. -/
theorem exists_severalValues_iff :
    (∃ count, extract hit (field path kind) = .error (.response (.severalValues path count))) ↔
      1 < (reached path hit).length := by
  constructor
  · rintro ⟨count, h⟩
    rcases extract_field_eq_error_iff.mp h with ⟨node, -, hdecode⟩ | ⟨hseveral, -⟩
    · obtain ⟨-, hcause⟩ := FieldKind.decode_eq_error_iff.mp hdecode
      exact absurd hcause (by simp)
    · exact hseveral
  · exact fun hseveral => ⟨_, extract_field_eq_error_iff.mpr (.inr ⟨hseveral, rfl⟩)⟩

end Extract

/-- What becomes of the nodes that the path of a field projection leads to, which are neither arrays
nor null. Without a node there is no value. A single node is decoded, and the result is its value or
the error of its decoding. Several nodes are refused. Edits on the way along the path change neither
the nodes nor the result. -/
theorem extract_field_reached (path : String) (kind : FieldKind) (hit : Json) :
    (∀ node ∈ reached path hit, node.IsNode) ∧
    (extract hit (field path kind) = .ok (.field none) ↔ reached path hit = []) ∧
    (∀ value, extract hit (field path kind) = .ok (.field (some value)) ↔
      ∃ node, reached path hit = [node] ∧ kind.decode path node = .ok value) ∧
    (∀ e, extract hit (field path kind) = .error e ↔
      (∃ node, reached path hit = [node] ∧ kind.decode path node = .error e) ∨
      1 < (reached path hit).length ∧
        e = .response (.severalValues path (reached path hit).length)) ∧
    ((∃ count, extract hit (field path kind) = .error (.response (.severalValues path count))) ↔
      1 < (reached path hit).length) ∧
    ∀ edited, Relation.EqvGen (Edited path) hit edited →
      reached path edited = reached path hit ∧
      extract edited (field path kind) = extract hit (field path kind) := by
  refine ⟨fun node hnode => ?_, extract_field_eq_none_iff, fun value => extract_field_eq_some_iff,
    fun e => extract_field_eq_error_iff, exists_severalValues_iff, fun edited h => ?_⟩
  · exact Json.isNode_of_mem_follow (fun start hstart => Json.isNode_of_mem_nodes? hstart) hnode
  · have hreached := reached_eq_of_eqvGen h
    refine ⟨hreached.symm, ?_⟩
    rw [extract, extract, valuesAt_eq_reached, valuesAt_eq_reached, hreached]

/-- The same number inside three arrays, and next to a null in one array. -/
theorem extract_field_reached_regrouped :
    let hit (document : Json) := Json.object [("_id", .string "x"), ("_source", document)]
    let before := hit (.object [("a", .array [.array [.object [("b", .array [.int 5])]]])])
    let after := hit (.object [("a", .array [.object [("b", .int 5)], .null]), ("c", .bool true)])
    Relation.EqvGen (Edited "a.b") before after ∧
      extract after (field "a.b" .long) = extract before (field "a.b" .long) ∧
      extract before (field "a.b" .long) = .ok (.field (some (.long 5))) := by
  intro hit before after
  let single : Json := .object [("b", .array [.int 5])]
  let flat := hit (.object [("a", .array [single]), ("c", .bool true)])
  let padded := hit (.object [("a", .array [single, .null]), ("c", .bool true)])
  have hflat : Edited "a.b" before flat := .inr (.member (.flatten ["b"] [] [single] []))
  have hpadded : Edited "a.b" flat padded := .inr (.member (.insertNull ["b"] [single] []))
  have hwrapped : Edited "a.b" after padded :=
    .inr (.member (.item [] [.null] (.member (.wrap [] (.int 5)))))
  have hchain : Relation.EqvGen (Edited "a.b") before after :=
    .trans _ _ _ (.rel _ _ hflat) (.trans _ _ _ (.rel _ _ hpadded) (.symm _ _ (.rel _ _ hwrapped)))
  obtain ⟨-, -, hvalue, -, -, hedited⟩ := extract_field_reached "a.b" .long before
  exact ⟨hchain, (hedited after hchain).2, (hvalue (.long 5)).mpr ⟨.int 5, rfl, rfl⟩⟩

end Projection

end SearchDsl
