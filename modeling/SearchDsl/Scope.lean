import SearchDsl.Schema.Index

/-!
# `SearchDsl.Scope`: the indexes that a query targets

A scope resolves a path against all its indexes at once. A field may be missing from some of them.
Where it is declared it must have a compatible type and stand in the same nested objects, for
otherwise no single query could address it.
-/

set_option autoImplicit false

namespace SearchDsl

/-- One or more indexes. -/
structure Scope where
  indexes : List Index
  indexes_ne : indexes ≠ []

/-- A value field as all indexes of a scope see it. -/
structure ValueField where
  path : String
  type : FieldType
  hierarchy : List String
  multiValued : Bool
deriving DecidableEq, Repr

/-- An object field as all indexes of a scope see it. -/
structure ObjectField where
  path : String
  layout : ObjectLayout
  hierarchy : List String
deriving DecidableEq, Repr

namespace Scope

/-- The scope of a list of indexes. -/
def ofList (indexes : List Index) : Except Error Scope :=
  if h : indexes = [] then .error (.argument .emptyScope) else .ok ⟨indexes, h⟩

/-- The scope of one index. -/
def single (index : Index) : Scope := ⟨[index], by simp⟩

/-- The names of the indexes, in order. -/
def indexNames (scope : Scope) : List String := scope.indexes.map Index.name

/-- Takes one more index into account. The type and the nesting are those of the first index that
declares the field, and the others have to agree with it. -/
def addValueField (path : String) (found : Option ValueField) (index : Index) :
    Except Error (Option ValueField) :=
  match index.field? path with
  | none => .ok found
  | some field =>
      match field.shape with
      | .object _ => .error (.argument (.objectNotValue path index.name))
      | .value type =>
          match found with
          | none => .ok (some ⟨path, type, field.hierarchy, field.multiValued⟩)
          | some first =>
              if first.type.isCompatible type = false then
                .error (.incompatibleField path .type index.name)
              else if first.hierarchy ≠ field.hierarchy then
                .error (.incompatibleField path .nesting index.name)
              else .ok (some first)

/-- The value field at a path. -/
def valueField (scope : Scope) (path : String) : Except Error ValueField := do
  match ← scope.indexes.foldlM (addValueField path) none with
  | some field => pure field
  | none => throw (.unknownField path)

/-- Takes one more index into account. -/
def addObjectField (path : String) (found : Option ObjectField) (index : Index) :
    Except Error (Option ObjectField) :=
  match index.field? path with
  | none => .ok found
  | some field =>
      match field.shape with
      | .value _ => .error (.argument (.valueNotObject path index.name))
      | .object layout =>
          let candidate : ObjectField := ⟨path, layout, field.hierarchy⟩
          match found with
          | none => .ok (some candidate)
          | some first =>
              if first = candidate then .ok (some first)
              else .error (.incompatibleField path .objectStructure index.name)

/-- The object field at a path. -/
def objectField (scope : Scope) (path : String) : Except Error ObjectField := do
  match ← scope.indexes.foldlM (addObjectField path) none with
  | some field => pure field
  | none => throw (.unknownField path)

end Scope

end SearchDsl
