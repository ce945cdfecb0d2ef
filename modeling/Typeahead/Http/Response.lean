import Typeahead.Http.Request

/-!
# Responses

How the service answers a request: with the flags of a schema, with completions, or with a changed
text. A connection that is not known, and a collection that cannot be sampled, are told; any other
failure only shows in the status.
-/

namespace Typeahead.Http

open Sampling (SampleError)
open Schema (Flags Kind)

/-- A response; only some of them have a body that is told. -/
structure Response where
  status : Nat
  body? : Option Json := none

namespace Response

/-- An object with named members. -/
def object (members : List (String × Json)) : Json :=
  .object (members.map fun member => (member.1.toList, member.2))

/-- A response that tells a failure. -/
def told (status : Nat) (detail : Text) : Response :=
  { status, body? := some (object [("detail", .text detail)]) }

/-- The content of the request is not what the endpoint reads. -/
def unprocessable : Response :=
  { status := 422 }

/-- A failure that is not told. -/
def failure : Response :=
  { status := 500 }

/-! ## Bodies -/

/-- The listed values of a kind. -/
def listedJson (flags : Flags Float Text) : Kind → Option (List Json)
  | .double => flags.numbers.values?.map (List.map Json.double)
  | .string => flags.texts.values?.map (List.map Json.text)
  | _ => none

/-- The flags of a field: for each of its kinds the listed values, or that there are some. -/
def flagsJson (flags : Flags Float Text) : Json :=
  let kinds := Kind.all.filter flags.has
  .object (kinds.map fun kind =>
    (kind.name, ((listedJson flags kind).map Json.array).getD (.bool true)))

/-- All listed numbers have a JSON form. -/
def isWritable (schema : Schema) : Bool :=
  schema.fields.all fun field =>
    (field.2.flags.numbers.values?.getD []).all fun number => number.isFinite

/-- The response with a schema. -/
def ofSchema (schema : Schema) : Response :=
  if isWritable schema then
    { status := 200
      body? := some <| object
        [("num", .integer schema.sampled),
          ("schema", .object (schema.fields.map fun field => (field.1, flagsJson field.2.flags)))] }
  else
    failure

/-- A completion. -/
def completionJson (completion : Completion) : Json :=
  object
    [("text", .text completion.text),
      ("kind", .text completion.kind.name),
      ("highlight", .array (completion.highlight.map Json.text))]

/-- The response with completions. -/
def ofOffer (offer : Offer) : Response :=
  { status := 200
    body? := some <| object
      [("suggestions", .array (offer.completions.map completionJson)),
        ("loading", .bool offer.loading)] }

/-- The response with a changed text. -/
def ofPosition (position : Body.Position) : Response :=
  { status := 200
    body? := some <| object
      [("text", .text position.body), ("cursor", .integer position.caret)] }

/-- The response to a request for a sample that there is not. -/
def ofSampleError {ε : Type} : SampleError ε → Response
  | .unknownConnection name => told 404 (Sampling.unknownConnectionMessage name)
  | .unsampled reason => told 502 reason
  | .other _ => failure

/-- The response to a request for completions that there are not. -/
def ofServiceError {ε : Type} : ServiceError ε → Response
  | .sample (.unknownConnection name) => told 404 (Sampling.unknownConnectionMessage name)
  | _ => failure

end Response

/-! ## Answering -/

variable {ε : Type}

/-- Answer a request for the schema of a collection. -/
def answerSample (service : Service) (source : Source ε) (content : Json) : Response × Service :=
  match collection? content with
  | none => (.unprocessable, service)
  | some collection =>
      match service.awaitSchema source collection with
      | (.ok schema, next) => (.ofSchema schema, next)
      | (.error error, next) => (.ofSampleError error, next)

/-- Answer a request for completions. -/
def answerSuggest (service : Service) (content : Json) : Response × Service :=
  match collection? content, position? content with
  | some collection, some position =>
      match service.complete (ε := Empty) collection position with
      | (.ok offer, next) => (.ofOffer offer, next)
      | (.error error, next) => (.ofServiceError error, next)
  | _, _ => (.unprocessable, service)

/-- Answer a request to accept a completion. -/
def answerReplace (content : Json) : Response :=
  match accepted? content with
  | none => .unprocessable
  | some accepted =>
      match Body.accept accepted.position accepted.completion accepted.kind with
      | .ok position => .ofPosition position
      | .error _ => .failure

/-- Answer a request at an endpoint. -/
def answerAt (service : Service) (source : Source ε) (content : Json) :
    Endpoint → Response × Service
  | .sample => answerSample service source content
  | .suggest => answerSuggest service content
  | .replace => (answerReplace content, service)

/-- Answer a request. -/
def answer (service : Service) (source : Source ε) (request : Request) : Response × Service :=
  match Endpoint.ofPath? request.path with
  | none => (.told 404 "Not Found", service)
  | some endpoint =>
      if request.isPost then
        match request.content? with
        | none => (.unprocessable, service)
        | some content => answerAt service source content endpoint
      else
        (.told 405 "Method Not Allowed", service)

end Typeahead.Http
