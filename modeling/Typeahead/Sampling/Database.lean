import Typeahead.Document.Value

/-!
# Databases

What a sampler sees of a database. Each call either does its work or raises a fault. The documents
of a collection come as a stream, which may raise a fault behind its last document, and which may
have to be closed.
-/

namespace Typeahead.Sampling

open Document (Name Value)

/-- The fields of a document. -/
abbrev Document := List (Name × Value)

/-- What a call raises: a fault that the database tells of, or any other error. -/
inductive Fault (ε : Type) where
  | database (message : Text)
  | other (error : ε)
  deriving DecidableEq, Repr

/-- How a stream is closed. -/
inductive Closing (ε : Type) where
  /-- It cannot be closed, and need not be. -/
  | missing
  | succeeds
  | fails (fault : Fault ε)
  deriving DecidableEq, Repr

/-- The documents that come out of a database. -/
structure Stream (ε : Type) where
  documents : List Document
  /-- The fault behind the last document; without one the stream ends there. -/
  fault? : Option (Fault ε) := none
  closing : Closing ε := .succeeds

/-- How the calls to a database end. -/
structure Server (ε : Type) where
  /-- Build a client for its address. -/
  connect : Except (Fault ε) Unit := .ok ()
  /-- Find the database that the address names. -/
  database : Except (Fault ε) Unit := .ok ()
  /-- Find a collection of the database. -/
  collection : Text → Except (Fault ε) Unit := fun _ => .ok ()
  /-- Ask a collection for a sample of its documents. -/
  aggregate : Text → Except (Fault ε) (Stream ε)

end Typeahead.Sampling
