import Typeahead.Sampling.Database
import Typeahead.Sampling.Error
import Typeahead.Schema.Survey

/-!
# Samplers

A sampler infers the schema of a collection from a sample of its documents. It reads the clock
before it asks for the sample and after each document, and stops behind the first document after
which its time budget is spent. Whatever happens on the way, a stream that can be closed is
closed.

A client is kept for each connection and used for all later samples, until all are closed.
-/

namespace Typeahead.Sampling

open Schema (Survey)

/-- Something that a sampler does to the databases. -/
inductive Event where
  /-- A client was built for a connection; clients are numbered in the order of their building. -/
  | connected (connection : Text) (client : Nat)
  /-- No client could be built for a connection. -/
  | refused (connection : Text)
  /-- A sample of a number of documents was asked for. -/
  | asked (collection : Text) (size : Int)
  /-- A document was read. -/
  | read
  /-- A stream was closed. -/
  | streamClosed
  /-- A client was closed. -/
  | clientClosed (client : Nat)
  deriving DecidableEq, Repr

/-- An error of a sample that no part of the sampler has a word for. -/
inductive Breakdown (ε : Type) where
  | fault (fault : Fault ε)
  /-- A listed number is beyond the range of doubles. -/
  | outOfRange
  deriving DecidableEq, Repr

/-- What a sampler is set up with, and the clients that it keeps. -/
structure Sampler (τ : Type) where
  /-- The names of the connections. -/
  connections : List Text
  /-- The number of documents that are asked for. -/
  sampleSize : Int
  /-- The time after which no more documents are read. -/
  timeBudget : τ
  /-- The open clients by their connections. -/
  clients : List (Text × Nat) := []
  /-- The number of clients that were built so far. -/
  built : Nat := 0
  /-- The number of times that the clock was read so far. -/
  readings : Nat := 0

/-- What a call of a sampler gives, what it has done, and the sampler after it. -/
structure Sampled (τ α : Type) where
  result : α
  events : List Event
  sampler : Sampler τ

/-! ## Streams -/

/-- The items up to the first one after which nothing more is wanted, and whether there is such
an item; the first item has the given number. -/
def takeUntil {α : Type} (isLast : Nat → Bool) : Nat → List α → List α × Bool
  | _, [] => ([], false)
  | number, item :: rest =>
      if isLast number then
        ([item], true)
      else
        let (taken, cut) := takeUntil isLast (number + 1) rest
        (item :: taken, cut)

/-- The fault with which reading a stream ends; none if reading was stopped. -/
def Stream.endingFault? {ε : Type} (stream : Stream ε) (stopped : Bool) : Option (Fault ε) :=
  if stopped then none else stream.fault?

/-- The fault that is left after the stream was closed: closing may raise another one in the place
of that which ended the reading. -/
def Closing.fault? {ε : Type} (closing : Closing ε) (earlier? : Option (Fault ε)) :
    Option (Fault ε) :=
  match closing with
  | .fails fault => some fault
  | .missing | .succeeds => earlier?

/-- Closing a stream, if it can be closed. -/
def Closing.events {ε : Type} : Closing ε → List Event
  | .missing => []
  | .succeeds | .fails _ => [.streamClosed]

namespace Sampler

variable {ε τ : Type}

/-- A connection is known. -/
def hasConnection (sampler : Sampler τ) (connection : Text) : Bool :=
  sampler.connections.contains connection

/-! ## Clients -/

/-- A connection has an open client. -/
def hasClient (sampler : Sampler τ) (connection : Text) : Bool :=
  sampler.clients.any fun client => client.1 = connection

/-- Build a client for a connection that has none. -/
def connect (sampler : Sampler τ) (server : Server ε) (connection : Text) :
    Sampled τ (Except (Fault ε) Unit) :=
  if sampler.hasClient connection then
    { result := .ok (), events := [], sampler }
  else
    match server.connect with
    | .ok () =>
        { result := .ok ()
          events := [.connected connection sampler.built]
          sampler := { sampler with
            clients := sampler.clients ++ [(connection, sampler.built)]
            built := sampler.built + 1 } }
    | .error fault => { result := .error fault, events := [.refused connection], sampler }

/-- Close all clients. -/
def close (sampler : Sampler τ) : Sampled τ Unit :=
  { result := ()
    events := sampler.clients.map fun client => .clientClosed client.2
    sampler := { sampler with clients := [] } }

/-! ## Samples -/

/-- What becomes of a fault: that of the database is told with the obstacle, and any other error is
left as it is. -/
def wrap (obstacle : Obstacle) : Fault ε → SampleError (Breakdown ε)
  | .database message => .unsampled (obstacle.reason message)
  | .other error => .other (.fault (.other error))

/-- The schema of the documents that were read. -/
def infer (documents : List Document) : Except (SampleError (Breakdown ε)) Schema :=
  match (Survey.addAll {} documents).schema? with
  | some schema => .ok schema
  | none => .error (.other .outOfRange)

/-- The collection can be asked for a sample. -/
def findCollection (server : Server ε) (connection collection : Text) :
    Except (SampleError (Breakdown ε)) Unit :=
  match server.database with
  | .error fault => .error (wrap (.findingDatabase connection) fault)
  | .ok () =>
      match server.collection collection with
      | .error fault => .error (.other (.fault fault))
      | .ok () => .ok ()

variable [Sub τ] [LT τ] [DecidableLT τ]

/-- The budget is spent by a reading of the clock. -/
def isSpent (sampler : Sampler τ) (clock : Nat → τ) (reading : Nat) : Bool :=
  sampler.timeBudget < clock reading - clock sampler.readings

/-- Ask a collection for a sample and read it. -/
def drain (sampler : Sampler τ) (clock : Nat → τ) (server : Server ε)
    (connection collection : Text) : Sampled τ (Except (SampleError (Breakdown ε)) Schema) :=
  let obstacle := Obstacle.sampling connection collection
  let asked := Event.asked collection sampler.sampleSize
  match server.aggregate collection with
  | .error fault =>
      { result := .error (wrap obstacle fault)
        events := [asked]
        sampler := { sampler with readings := sampler.readings + 1 } }
  | .ok stream =>
      let (taken, stopped) :=
        takeUntil (sampler.isSpent clock) (sampler.readings + 1) stream.documents
      { result :=
          match stream.closing.fault? (stream.endingFault? stopped) with
          | some fault => .error (wrap obstacle fault)
          | none => infer taken
        events := [asked] ++ taken.map (fun _ => .read) ++ stream.closing.events
        sampler := { sampler with readings := sampler.readings + 1 + taken.length } }

/-- Sample a collection. -/
def sample (sampler : Sampler τ) (clock : Nat → τ) (server : Server ε)
    (connection collection : Text) : Sampled τ (Except (SampleError (Breakdown ε)) Schema) :=
  if sampler.hasConnection connection then
    let connected := sampler.connect server connection
    match connected.result with
    | .error fault => { connected with result := .error (wrap (.opening connection) fault) }
    | .ok () =>
        match findCollection server connection collection with
        | .error error => { connected with result := .error error }
        | .ok () =>
            let drained := connected.sampler.drain clock server connection collection
            { drained with events := connected.events ++ drained.events }
  else
    { result := .error (.unknownConnection connection), events := [], sampler }

end Sampler

end Typeahead.Sampling
