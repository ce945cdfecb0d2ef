import Typeahead.Body
import Typeahead.Sampling.Error
import Typeahead.Store.Basic

/-!
# The completion service

The service answers for the collections of its connections. It completes with the schema that its
store has of a collection; as long as there is none, a flight fetches it in the background, and
nothing is completed.

How a collection is sampled is handed to the operations that sample, so that each of them sees the
databases as they are at its time.
-/

namespace Typeahead

open Sampling (SampleError)

/-- The connection and the name of a collection. -/
abbrev Collection := Text × Text

/-- How the collections are sampled. -/
abbrev Source (ε : Type) := Collection → Except (SampleError ε) Schema

/-- The outcome of a flight that samples a collection. -/
def Outcome.ofSample {ε : Type} :
    Except (SampleError ε) Schema → Outcome Schema (SampleError ε)
  | .ok schema => .fetched schema
  | .error (.unsampled _) => .unsampled
  | .error error => .failed error

/-- The connections that are served, and the schemas of their collections. -/
structure Service where
  /-- The names of the connections. -/
  connections : List Text
  store : Store Collection Schema Float Nat
  /-- The name of the next flight. -/
  nextFlight : Nat := 0
  /-- The number of samples that have ended. -/
  samples : Nat := 0
  /-- The number of times that the sampler was closed. -/
  closings : Nat := 0

/-- What the service offers at a caret. -/
structure Offer where
  completions : List Completion
  /-- The schema is being fetched. -/
  loading : Bool

/-- Why the service has no answer. -/
inductive ServiceError (ε : Type) where
  | sample (error : SampleError ε)
  | query (error : Fuzzy.QueryError)
  | template (error : Acceptance.TemplateError)
  | kind (error : Selector.CompletionKind.NameError)

namespace Service

variable {ε : Type}

/-- A service with an empty store, whose clock starts at zero. -/
def start (connections : List Text) (lifetime : Float) : Service :=
  { connections, store := { lifetime, now := 0 } }

/-- The connection of a collection is served. -/
def serves (service : Service) (collection : Collection) : Bool :=
  service.connections.contains collection.1

/-! ## Schemas -/

/-- The fresh schema of a collection. Without one it is fetched in the background. -/
def requestSchema (service : Service) (collection : Collection) :
    Except (SampleError ε) (Option Schema) × Service :=
  if service.serves collection then
    let (schema?, store) := service.store.request collection service.nextFlight
    (.ok schema?, { service with store, nextFlight := service.nextFlight + 1 })
  else
    (.error (.unknownConnection collection.1), service)

/-- The fresh schema of a collection. Without one the collection is sampled at once. -/
def awaitSchema (service : Service) (source : Source ε) (collection : Collection) :
    Except (SampleError ε) Schema × Service :=
  if service.serves collection then
    match service.store.get? collection with
    | some schema => (.ok schema, service)
    | none =>
        let sampled := { service with samples := service.samples + 1 }
        match source collection with
        | .ok schema => (.ok schema, { sampled with store := service.store.put collection schema })
        | .error error => (.error error, sampled)
  else
    (.error (.unknownConnection collection.1), service)

/-- End a flight with a sample of its collection. -/
def land (source : Source ε) (service : Service) (flight : Flight Collection Nat) : Service :=
  match service.store.conclude? flight.name (Outcome.ofSample (source flight.key)) with
  | some (_, store) => { service with store, samples := service.samples + 1 }
  | none => service

/-- End all flights in the order of their starts. -/
def settle (service : Service) (source : Source ε) : Service :=
  service.store.flights.foldl (land source) service

/-! ## Completions -/

/-- Complete a body at its caret. -/
def complete (service : Service) (collection : Collection) (position : Body.Position) :
    Except (ServiceError ε) Offer × Service :=
  match service.requestSchema (ε := ε) collection with
  | (.error error, next) => (.error (.sample error), next)
  | (.ok none, next) =>
      (.ok { completions := [], loading := next.store.isLoading collection }, next)
  | (.ok (some schema), next) =>
      match Body.completions position.body position.caret schema with
      | .ok completions => (.ok { completions, loading := false }, next)
      | .error error => (.error (.query error), next)

/-- Accept a completion whose kind is told by its name. The name is read only if the caret points
at something. -/
def accept (position : Body.Position) (completion kindName : Text) :
    Except (ServiceError ε) Body.Position :=
  match Body.focus? position.body position.caret with
  | none => .ok position
  | some focus =>
      match Selector.CompletionKind.ofName? kindName with
      | .error error => .error (.kind error)
      | .ok kind => (Body.acceptAt position.body completion kind focus).mapError .template

/-! ## The rest -/

/-- Let some time pass. -/
def advance (service : Service) (seconds : Float) : Service :=
  { service with store := { service.store with now := service.store.now + seconds } }

/-- Forget the schema of a collection. -/
def invalidate (service : Service) (collection : Collection) : Service :=
  { service with store := service.store.invalidate collection }

/-- Close the sampler. -/
def close (service : Service) : Service :=
  { service with closings := service.closings + 1 }

end Service

end Typeahead
