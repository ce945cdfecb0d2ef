import Typeahead.Store.Basic

/-!
# Runs of a store

Everything that happens to a store is a step: a question, a change from outside, the end of a
flight, or a change of the clock. Each step reports what it tells whoever has taken it, and a run
takes steps one after the other.
-/

namespace Typeahead.Store

universe u v w x y

variable {κ : Type u} {σ : Type v} {τ : Type w} {φ : Type x} {ε : Type y}

/-- Something that happens to a store. -/
inductive Step (κ : Type u) (σ : Type v) (τ : Type w) (φ : Type x) (ε : Type y) where
  | get (key : κ)
  | put (key : κ) (schema : σ)
  | invalidate (key : κ)
  /-- Ask without waiting; the name is for the flight, if one is started. -/
  | request (key : κ) (name : φ)
  /-- Ask and wait; the name is for the flight, if one is started. -/
  | load (key : κ) (name : φ)
  | conclude (name : φ) (outcome : Outcome σ ε)
  | setClock (time : τ)

/-- What a step tells. -/
inductive Report (κ : Type u) (σ : Type v) (φ : Type x) (ε : Type y) where
  | silent
  /-- A question was answered at once. -/
  | answered (schema? : Option σ)
  /-- A question has started a flight. -/
  | started
  /-- A flight has ended. -/
  | ended (flight : Flight κ φ) (outcome : Outcome σ ε)
  /-- There is no flight to end. -/
  | unknown

/-- The report on a question that may have started a flight. -/
def Report.ofLookUp (known? : Option (Option σ)) : Report κ σ φ ε :=
  match known? with
  | some schema? => .answered schema?
  | none => .started

variable [DecidableEq κ] [DecidableEq φ] [Sub τ] [LT τ] [DecidableLT τ]

/-- Take one step. -/
def step (store : Store κ σ τ φ) : Step κ σ τ φ ε → Report κ σ φ ε × Store κ σ τ φ
  | .get key => (.answered (store.get? key), store)
  | .put key schema => (.silent, store.put key schema)
  | .invalidate key => (.silent, store.invalidate key)
  | .request key name =>
      let (known?, next) := store.lookUp { name, key, awaited := false }
      (.ofLookUp known?, next)
  | .load key name =>
      let (known?, next) := store.load key name
      (.ofLookUp known?, next)
  | .conclude name outcome =>
      match store.conclude? name outcome with
      | some (flight, next) => (.ended flight outcome, next)
      | none => (.unknown, store)
  | .setClock time => (.silent, { store with now := time })

/-- Take steps one after the other, and collect their reports. -/
def run (store : Store κ σ τ φ) : List (Step κ σ τ φ ε) → List (Report κ σ φ ε) × Store κ σ τ φ
  | [] => ([], store)
  | first :: rest =>
      let (report, next) := store.step first
      let (reports, last) := run next rest
      (report :: reports, last)

end Typeahead.Store
