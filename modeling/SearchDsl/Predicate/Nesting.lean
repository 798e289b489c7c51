import SearchDsl.Predicate.Basic

/-!
# `SearchDsl.Predicate.Nesting`: predicates in nested contexts

A predicate on fields inside nested objects is only evaluated inside a `nested` clause for every one
of these objects. Callers need not write the clauses. A predicate is rendered in a context, which is
the path of the closest `nested` clause around it or nothing at the root of the query, and it adds
the clauses that are missing between the context and its own innermost nested object.

The root takes every predicate. Any other context takes a predicate only if it is one of the
predicate's own nested objects. `Predicate.checkWithin` decides that without rendering, and
`Predicate.createNested` relies on it, so that what is inside a nested predicate always fits.
-/

set_option autoImplicit false

namespace SearchDsl

/-- A query in the nested context of a path. -/
def nestedClause (path : String) (query : Json) : Json :=
  .single "nested" (.object [("path", .string path), ("query", query)])

/-- The levels of a hierarchy that the context does not provide: those after it, or all if it is not
one of them. -/
def levelsBelow (context : Option String) (hierarchy : List String) : List String :=
  (hierarchy.reverse.takeWhile fun path => some path ≠ context).reverse

/-- A query in one nested clause per level that the context does not provide. -/
def wrapNested (hierarchy : List String) (context : Option String) (query : Json) : Json :=
  (levelsBelow context hierarchy).foldr nestedClause query

/-- Checks that what stands in the hierarchy can be rendered in the context. The paths are those to
name if it cannot. -/
def checkContext (hierarchy paths : List String) (context : Option String) : Except Error Unit :=
  match context with
  | none => .ok ()
  | some expected =>
      if expected ∈ hierarchy then .ok () else .error (.misplaced expected paths)

namespace FieldTest

/-- The member for one end of a range. -/
def boundMember (included excluded : String) : Bound → List (String × Json)
  | .unbounded => []
  | .included value => [(included, value)]
  | .excluded value => [(excluded, value)]

/-- The query clause that tests one field. -/
def clause (test : FieldTest) (boost : Option Single) (path : String) : Json :=
  let boosted := Json.member? "boost" (boost.map .ofSingle)
  match test with
  | matching value fuzziness =>
      let fuzziness := Json.member? "fuzziness" (fuzziness.map fun n => .int n.toNat)
      .single "match" <| .single path <| .object <| boosted ++ fuzziness ++ [("query", value)]
  | phrase text slop =>
      let slop := Json.member? "slop" (if slop = 0 then none else some (.int slop.toNat))
      .single "match_phrase" <| .single path <| .object <|
        boosted ++ [("query", .string text)] ++ slop
  | range lower upper =>
      let lower := boundMember "gte" "gt" lower
      let upper := boundMember "lte" "lt" upper
      .single "range" <| .single path <| .object <| boosted ++ lower ++ upper
  | wildcard pattern =>
      .single "wildcard" <| .single path <| .object <| boosted ++ [("value", .string pattern)]
  | .exists => .single "exists" <| .object <| boosted ++ [("field", .string path)]

end FieldTest

namespace FieldPredicate

/-- The query of a field predicate without its nested clauses. Of several fields any may match. -/
def body (p : FieldPredicate) : Json :=
  match p.paths with
  | [path] => p.test.clause p.boost path
  | paths =>
      .single "bool" <| .object
        [("minimum_should_match", .int 1), ("should", .array (paths.map (p.test.clause p.boost)))]

/-- Checks that a field predicate can be rendered in a context. -/
def checkWithin (p : FieldPredicate) (context : Option String) : Except Error Unit :=
  checkContext p.hierarchy p.paths context

/-- Renders a field predicate in a context. -/
def build (p : FieldPredicate) (context : Option String) : Except Error Json := do
  p.checkWithin context
  pure (wrapNested p.hierarchy context p.body)

end FieldPredicate

namespace Occur

/-- The member of a bool query that holds the clauses of an occurrence. -/
def key : Occur → String
  | must => "must"
  | should => "should"
  | mustNot => "must_not"
  | filter => "filter"

end Occur

namespace Predicate

mutual

/-- Checks that a predicate can be rendered in a context. -/
def checkWithin (context : Option String) : Predicate → Except Error Unit
  | matchAll _ | ids _ => .ok ()
  | field p => p.checkWithin context
  | nested path parents _ => checkContext parents [path] context
  | bool clauses _ _ => checkClauses context clauses

/-- Checks the clauses of a bool predicate in order. -/
def checkClauses (context : Option String) : List (Occur × Predicate) → Except Error Unit
  | [] => .ok ()
  | (_, clause) :: rest => do
      checkWithin context clause
      checkClauses context rest

end

/-- The documents of the nested object at `path` that match `inner`. The hierarchy of the object
ends with its own path, and everything in `inner` has to stand inside the object. -/
def createNested (path : String) (hierarchy : List String) (inner : Predicate) :
    Except Error Predicate := do
  if hierarchy.getLast? ≠ some path then throw (.argument (.objectNotNested path))
  Path.checkChain hierarchy
  checkWithin (some path) inner
  pure (nested path hierarchy.dropLast inner)

/-- The rendered clauses of one occurrence, or the first failure among them. -/
def clausesOf (occur : Occur) (built : List (Occur × Except Error Json)) :
    Except Error (List Json) :=
  (built.filter fun clause => clause.1 = occur).mapM Prod.snd

/-- The member for the clauses of an occurrence, left out when there are none. -/
def clauseMember (occur : Occur) (clauses : List Json) : List (String × Json) :=
  if clauses = [] then [] else [(occur.key, .array clauses)]

/-- A bool query from its rendered clauses. Of several failures the first one counts, in the order
must, should, must not, filter. -/
def boolQuery (minimumShouldMatch : Option UInt32) (boost : Option Single)
    (built : List (Occur × Except Error Json)) : Except Error Json := do
  let must ← clausesOf .must built
  let should ← clausesOf .should built
  let mustNot ← clausesOf .mustNot built
  let filter ← clausesOf .filter built
  pure <| .single "bool" <| .object <|
    Json.member? "boost" (boost.map .ofSingle)
    ++ clauseMember .filter filter
    ++ Json.member? "minimum_should_match" (minimumShouldMatch.map fun n => .int n.toNat)
    ++ clauseMember .must must
    ++ clauseMember .mustNot mustNot
    ++ clauseMember .should should

mutual

/-- Renders a predicate in a context. The clauses of a bool predicate are rendered in the context of
the whole, so each adds the nested clauses that it needs. -/
def build (context : Option String) : Predicate → Except Error Json
  | matchAll boost =>
      .ok (.single "match_all" (.object (Json.member? "boost" (boost.map .ofSingle))))
  | ids values => .ok (.single "ids" (.single "values" (.strings values)))
  | field p => p.build context
  | nested path parents inner => do
      checkContext parents [path] context
      let query ← build (some path) inner
      pure (wrapNested parents context (nestedClause path query))
  | bool clauses minimum boost => boolQuery minimum boost (buildClauses context clauses)

/-- Renders clauses one by one. -/
def buildClauses (context : Option String) :
    List (Occur × Predicate) → List (Occur × Except Error Json)
  | [] => []
  | (occur, clause) :: rest => (occur, build context clause) :: buildClauses context rest

end

end Predicate

end SearchDsl
