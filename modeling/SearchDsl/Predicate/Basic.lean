import SearchDsl.Path

/-!
# `SearchDsl.Predicate.Basic`: search predicates

A predicate says which documents match. Field predicates test one or more value fields that stand in
the same nested objects. Nested predicates test the documents of a nested object, and bool
predicates combine others.

The constructors of the types take anything. `FieldPredicate.create` and `Predicate.createNested`
check what they are given, see `SearchDsl.Predicate.Nesting` for the latter.
-/

set_option autoImplicit false

namespace SearchDsl

/-- One end of a range, with its encoded value. -/
inductive Bound where
  | unbounded
  | included (value : Json)
  | excluded (value : Json)

/-- What a field predicate tests. -/
inductive FieldTest where
  /-- The field has the value, up to some edits if a fuzziness is given. -/
  | matching (value : Json) (fuzziness : Option UInt8)
  /-- The terms occur in order, at most `slop` positions apart. -/
  | phrase (text : String) (slop : UInt32)
  | range (lower upper : Bound)
  /-- The field matches a pattern with `*` and `?`. -/
  | wildcard (pattern : String)
  /-- The field has a value. -/
  | exists

/-- A test of one or more value fields. -/
structure FieldPredicate where
  paths : List String
  /-- The paths of the nested objects around the fields, outermost first. -/
  hierarchy : List String
  test : FieldTest
  boost : Option Single := none

/-- How a clause of a bool predicate counts. -/
inductive Occur where
  | must
  | should
  | mustNot
  /-- Like `must`, but without a share in the score. -/
  | filter
deriving DecidableEq, Repr

/-- A search predicate. -/
inductive Predicate where
  | matchAll (boost : Option Single)
  | ids (ids : List String)
  | field (predicate : FieldPredicate)
  /-- The documents of the nested object at `path`, which itself stands in the nested objects of
  `parents`, outermost first. -/
  | nested (path : String) (parents : List String) (inner : Predicate)
  | bool (clauses : List (Occur × Predicate)) (minimumShouldMatch : Option UInt32)
      (boost : Option Single)

namespace FieldTest

/-- Whether the test is a match, which several fields can share. -/
def isMatching : FieldTest → Bool
  | matching .. => true
  | _ => false

end FieldTest

namespace FieldPredicate

/-- A field predicate, if it has a field, only a match has several, and each nested object of the
hierarchy lies below the one before it. -/
def create (paths hierarchy : List String) (test : FieldTest) : Except Error FieldPredicate := do
  if paths = [] then throw (.argument .noTargetField)
  if 1 < paths.length ∧ test.isMatching = false then throw (.argument .severalFields)
  Path.checkChain hierarchy
  pure { paths, hierarchy, test }

/-- Sets the boost, if one is given. -/
def withBoost (p : FieldPredicate) : Option Single → FieldPredicate
  | some boost => { p with boost := some boost }
  | none => p

/-- Sets the slop of a phrase. Other tests have none. -/
def withSlop (p : FieldPredicate) (slop : UInt32) : FieldPredicate :=
  match p.test with
  | .phrase text _ => { p with test := .phrase text slop }
  | _ => p

end FieldPredicate

namespace Predicate

/-- The documents with one of the given identifiers, at least one of which is needed. -/
def ofIds (ids : List String) : Except Error Predicate :=
  if ids = [] then .error (.argument .noIdentifiers) else .ok (.ids ids)

/-- A bool predicate without clauses. -/
def emptyBool : Predicate := bool [] none none

/-- Adds a clause to a bool predicate. Other predicates have no clauses and stay as they are. -/
def addClause (target : Predicate) (occur : Occur) (clause : Predicate) : Predicate :=
  match target with
  | bool clauses minimum boost => bool (clauses ++ [(occur, clause)]) minimum boost
  | other => other

end Predicate

end SearchDsl
