/-!
# Stores of schemas

A store keeps a schema under each key for a limited time, and starts a flight to fetch the schema
of a key that it has none for. A key that is marked as loading gets no second flight until the
mark is gone: a flight that ends replaces whatever is under its key by what it has brought, a
schema that is put there replaces the mark as well, and only a cancelled flight leaves its mark
behind.

Keys, schemas, times, and the names of flights are of any type. The clock is part of the store,
so that it can be set forward and back.
-/

namespace Typeahead

universe u v w x y

/-- What a store holds under a key. -/
inductive Slot (σ : Type u) (τ : Type v) where
  /-- The mark of a flight. -/
  | loading
  /-- A schema, and the time at which it was stored. -/
  | stored (schema : σ) (time : τ)
  deriving DecidableEq, Repr

/-- A fetch that has been started and has not ended. -/
structure Flight (κ : Type u) (φ : Type v) where
  name : φ
  key : κ
  /-- Its outcome is handed to whoever has started it. -/
  awaited : Bool
  deriving DecidableEq, Repr

/-- How a flight ends. -/
inductive Outcome (σ : Type u) (ε : Type v) where
  | fetched (schema : σ)
  /-- The collection could not be sampled. -/
  | unsampled
  /-- Something else went wrong. -/
  | failed (error : ε)
  /-- The flight was given up. -/
  | cancelled
  deriving DecidableEq, Repr

/-- Schemas under keys, the flights under way, and a clock. -/
structure Store (κ : Type u) (σ : Type v) (τ : Type w) (φ : Type x) where
  /-- How long a stored schema is fresh. -/
  lifetime : τ
  now : τ
  slots : κ → Option (Slot σ τ) := fun _ => none
  /-- The flights under way, in the order of their starts. -/
  flights : List (Flight κ φ) := []

namespace Store

variable {κ : Type u} {σ : Type v} {τ : Type w} {φ : Type x} {ε : Type y}

/-! ## Looking -/

section Reading

variable [Sub τ] [LT τ] [DecidableLT τ]

/-- A schema that was stored at a time is fresh now. -/
def isFresh (store : Store κ σ τ φ) (time : τ) : Bool :=
  store.now - time < store.lifetime

/-- What can be said about a key without a flight: its fresh schema, or that there is none yet
while it is loading. -/
def known? (store : Store κ σ τ φ) (key : κ) : Option (Option σ) :=
  match store.slots key with
  | some .loading => some none
  | some (.stored schema time) => if store.isFresh time then some (some schema) else none
  | none => none

/-- The fresh schema of a key. -/
def get? (store : Store κ σ τ φ) (key : κ) : Option σ :=
  (store.known? key).join

end Reading

/-- A key is marked as loading. -/
def isLoading (store : Store κ σ τ φ) (key : κ) : Bool :=
  match store.slots key with
  | some .loading => true
  | _ => false

/-! ## Changing -/

section Writing

variable [DecidableEq κ]

/-- Hold something else under a key. -/
def setSlot (store : Store κ σ τ φ) (key : κ) (slot : Option (Slot σ τ)) : Store κ σ τ φ :=
  { store with slots := fun other => if other = key then slot else store.slots other }

/-- Store a schema now. -/
def put (store : Store κ σ τ φ) (key : κ) (schema : σ) : Store κ σ τ φ :=
  store.setSlot key (some (.stored schema store.now))

/-- Drop a stored schema; a mark stays. -/
def invalidate (store : Store κ σ τ φ) (key : κ) : Store κ σ τ φ :=
  if store.isLoading key then store else store.setSlot key none

/-- Mark a key as loading and start a flight for it. -/
def launch (store : Store κ σ τ φ) (flight : Flight κ φ) : Store κ σ τ φ :=
  { store.setSlot flight.key (some .loading) with flights := store.flights ++ [flight] }

/-- What a flight leaves under its key. -/
def settle (store : Store κ σ τ φ) (key : κ) : Outcome σ ε → Store κ σ τ φ
  | .fetched schema => store.put key schema
  | .unsampled | .failed _ => store.setSlot key none
  | .cancelled => store

/-- End the flight with a name, if there is one under way. -/
def conclude? [DecidableEq φ] (store : Store κ σ τ φ) (name : φ) (outcome : Outcome σ ε) :
    Option (Flight κ φ × Store κ σ τ φ) :=
  (store.flights.find? (·.name = name)).map fun flight =>
    (flight, { store.settle flight.key outcome with
      flights := store.flights.eraseP (·.name = name) })

variable [Sub τ] [LT τ] [DecidableLT τ]

/-- What is known of a key; a flight is started if nothing is. -/
def lookUp (store : Store κ σ τ φ) (flight : Flight κ φ) : Option (Option σ) × Store κ σ τ φ :=
  match store.known? flight.key with
  | some schema? => (some schema?, store)
  | none => (none, store.launch flight)

/-- Ask for the schema of a key without waiting for it. -/
def request (store : Store κ σ τ φ) (key : κ) (name : φ) : Option σ × Store κ σ τ φ :=
  let (known?, next) := store.lookUp { name, key, awaited := false }
  (known?.join, next)

/-- Ask for the schema of a key and wait for it. Without an answer at once the flight has it. -/
def load (store : Store κ σ τ φ) (key : κ) (name : φ) : Option (Option σ) × Store κ σ τ φ :=
  store.lookUp { name, key, awaited := true }

end Writing

end Store

end Typeahead
