import Typeahead.Json.Field
import Typeahead.Service.Basic

/-!
# Requests

A request names an endpoint by its path, and carries a JSON value that the endpoint reads. All
members that an endpoint knows have to be there and of the right type; other members are ignored.
-/

namespace Typeahead.Http

open Selector (CompletionKind)

/-- A request. -/
structure Request where
  method : Text
  /-- What is asked for, with a query behind a question mark, which no endpoint reads. -/
  target : Text
  /-- The JSON value of the body; none if there is no body or if it is malformed. -/
  content? : Option Json

/-- What can be asked for. -/
inductive Endpoint where
  | sample
  | suggest
  | replace
  deriving DecidableEq, Repr

namespace Endpoint

/-- All endpoints. -/
def all : List Endpoint :=
  [sample, suggest, replace]

/-- The path of an endpoint. -/
def path : Endpoint → Text
  | sample => "/sample"
  | suggest => "/suggest"
  | replace => "/replace"

/-- The endpoint with a path. -/
def ofPath? (path : Text) : Option Endpoint :=
  all.find? (·.path == path)

end Endpoint

namespace Request

/-- The path of the target, without a query. -/
def path (request : Request) : Text :=
  request.target.takeWhile (· != '?')

/-- The request sends its body to the endpoint. -/
def isPost (request : Request) : Bool :=
  request.method.map Char.toUpper == "POST".toList

end Request

/-! ## Contents -/

/-- The collection that a request is about. -/
def collection? (content : Json) : Option Collection := do
  let connection ← content.field? Json.textField? "connection"
  let name ← content.field? Json.textField? "collection"
  return (connection, name)

/-- The text and the caret that a request is about. -/
def position? (content : Json) : Option Body.Position := do
  let body ← content.field? Json.textField? "text"
  let caret ← content.field? Json.integerField? "cursor"
  return { body, caret }

/-- A field that is the name of a kind of completions. -/
def kindField? (value : Json) : Option CompletionKind :=
  (Json.textField? value).bind fun name => (CompletionKind.ofName? name).toOption

/-- A completion that a request accepts. -/
structure Accepted where
  position : Body.Position
  completion : Text
  kind : CompletionKind

/-- The completion that is accepted. -/
def accepted? (content : Json) : Option Accepted := do
  let position ← position? content
  let completion ← content.field? Json.textField? "suggestion"
  let kind ← content.field? kindField? "kind"
  return { position, completion, kind }

end Typeahead.Http
