import SearchDsl.Json.Printer

/-!
# `SearchDsl.Request.Basic`: requests

A request is a method, a path, parameters of the query string and an optional JSON body. Sending it
is the business of the caller.
-/

set_option autoImplicit false

namespace SearchDsl

/-- The HTTP methods in use. -/
inductive Method where
  | get
  | post
  | put
  | delete
deriving DecidableEq, Repr

/-- The name of a method in a request line. -/
def Method.name : Method → String
  | get => "GET"
  | post => "POST"
  | put => "PUT"
  | delete => "DELETE"

/-- A request that is ready to be sent. -/
structure Request where
  method : Method
  path : String
  /-- The parameters of the query string, in increasing order of their names. -/
  params : List (String × String) := []
  body : Option Json := none

namespace Request

/-- The query string: a question mark before the first parameter and an ampersand before the
others. Nothing is escaped. -/
def queryString (params : List (String × String)) : String :=
  match params with
  | [] => ""
  | params => "?" ++ "&".intercalate (params.map fun param => param.1 ++ "=" ++ param.2)

/-- The request as one line of text. -/
def text (request : Request) : String :=
  let body := match request.body with
    | some body => " " ++ body.compact
    | none => ""
  request.method.name ++ " " ++ request.path ++ queryString request.params ++ body

end Request

end SearchDsl
