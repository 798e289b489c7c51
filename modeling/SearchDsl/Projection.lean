import SearchDsl.Field.Codec
import SearchDsl.Path
import SearchDsl.Scope
import SearchDsl.Text.Sorted

/-!
# `SearchDsl.Projection`: what is returned for each hit

A projection says what to read from a hit. The value of a field is looked for in the document that
comes with the hit, through objects and arrays alike. A search asks only for those parts of the
documents that its projections need.
-/

set_option autoImplicit false

namespace SearchDsl

/-- The index and the identifier of a document. -/
structure DocumentReference where
  index : String
  id : String
deriving DecidableEq, Repr

/-- What to read from each hit. -/
inductive Projection where
  | reference
  | id
  | score
  /-- The only value of a field. -/
  | field (path : String) (kind : FieldKind)
  /-- The whole document. -/
  | source
deriving DecidableEq, Repr

/-- What a projection has read. -/
inductive Projected where
  | reference (value : DocumentReference)
  | id (value : String)
  | score (value : Single)
  | field (value : Option FieldValue)
  | source (value : Json)

namespace Projection

/-- Whether the score is projected. -/
def isScore : Projection → Bool
  | score => true
  | _ => false

/-- Whether the whole document is projected. -/
def isSource : Projection → Bool
  | source => true
  | _ => false

/-- The path of a field projection. -/
def path? : Projection → Option String
  | field path _ => some path
  | _ => none

/-- A text that every hit has. -/
def textOfHit (hit : Json) (key : String) : Except Error String :=
  match (hit.get? key).bind Json.asString? with
  | some text => .ok text
  | none => .error (.response (.missingInHit key))

/-- The score of a hit, if it has one. -/
def scoreOfHit? (hit : Json) : Option Single :=
  ((hit.get? "_score").bind Json.asDouble?).map (Binary.convert .binary32)

mutual

/-- The values at the end of a path of names below a node, in the order of the document. Arrays are
searched item by item wherever they occur, and a null is no value. -/
def collect (segments : List String) : Json → List Json
  | .array items => collectItems segments items
  | .null => []
  | .object members =>
      match segments with
      | [] => [.object members]
      | name :: rest => collectMember name rest members
  | .bool b => leaf segments (.bool b)
  | .int n => leaf segments (.int n)
  | .double x => leaf segments (.double x)
  | .string s => leaf segments (.string s)
where
  /-- A node without parts is a value at the end of a path and nothing before. -/
  leaf (segments : List String) (node : Json) : List Json :=
    match segments with
    | [] => [node]
    | _ :: _ => []

/-- The values below the items of an array. -/
def collectItems (segments : List String) : List Json → List Json
  | [] => []
  | item :: rest => collect segments item ++ collectItems segments rest

/-- The values below the member with the given name. -/
def collectMember (name : String) (segments : List String) : List (String × Json) → List Json
  | [] => []
  | (key, value) :: rest =>
      if name = key then collect segments value else collectMember name segments rest

end

/-- The values at a path of a document. -/
def valuesAt (path : String) (hit : Json) : List Json :=
  match hit.get? "_source" with
  | some document => collect (Path.segments path) document
  | none => []

/-- Reads a projection from a hit. -/
def extract (hit : Json) : Projection → Except Error Projected
  | reference => do
      let index ← textOfHit hit "_index"
      let id ← textOfHit hit "_id"
      pure (.reference ⟨index, id⟩)
  | id => do pure (.id (← textOfHit hit "_id"))
  | score =>
      match scoreOfHit? hit with
      | some value => .ok (.score value)
      | none => .error (.response (.missingInHit "_score"))
  | source => .ok (.source ((hit.get? "_source").getD .null))
  | field path kind =>
      match valuesAt path hit with
      | [] => .ok (.field none)
      | [value] => do pure (.field (some (← kind.decode path value)))
      | values => .error (.response (.severalValues path values.length))

/-- Which parts of the documents a search has to return for its projections. Nothing is said when
the whole document is projected, and nothing is returned when no field is. -/
def sourceFilter (projections : List Projection) : Option Json :=
  if projections.any isSource then none
  else
    match Text.sortedDistinct (projections.filterMap path?) with
    | [] => some (.bool false)
    | paths => some (.single "includes" (.strings paths))

end Projection

namespace Scope

/-- A projection of the value of a field. -/
def fieldProjection (scope : Scope) (path : String) : Except Error Projection := do
  let field ← scope.valueField path
  if field.type.projectable then pure (.field field.path field.type.kind)
  else throw (.argument (.notProjectable field.path))

end Scope

end SearchDsl
