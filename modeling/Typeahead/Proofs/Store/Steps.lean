import Typeahead.Store.Run

/-!
# What one step does to one key

The slot of a key and the flights under way for it are all that the store knows about it. For
each of the operations of a store this module says what becomes of the two: a slot is written by
the operation on its own key alone, a flight is added by a question about a key of which nothing is
known, and taken away when it ends.
-/

namespace Typeahead.Store

universe u v w x y

variable {κ : Type u} {σ : Type v} {τ : Type w} {φ : Type x} {ε : Type y}

/-! ## The slot of a key -/

section Slots

variable {store : Store κ σ τ φ} {key : κ}

theorem isLoading_eq_true_iff : store.isLoading key = true ↔ store.slots key = some .loading := by
  unfold isLoading
  split
  next marked => simp [marked]
  next unmarked =>
    constructor
    · intro impossible
      exact absurd impossible Bool.false_ne_true
    · exact fun marked => absurd marked unmarked

theorem isLoading_congr {other : Store κ σ τ φ} (same : other.slots key = store.slots key) :
    other.isLoading key = store.isLoading key := by
  unfold isLoading
  rw [same]

section Known

variable [Sub τ] [LT τ] [DecidableLT τ]

theorem known?_of_stored {schema : σ} {time : τ}
    (stored : store.slots key = some (.stored schema time)) :
    store.known? key = if store.isFresh time then some (some schema) else none := by
  unfold known?
  rw [stored]

/-- A key of which nothing is known has no mark. -/
theorem isLoading_of_known?_eq_none (unknown : store.known? key = none) :
    store.isLoading key = false := by
  apply Bool.eq_false_iff.mpr
  intro loading
  have marked := isLoading_eq_true_iff.mp loading
  simp [known?, marked] at unknown

/-- A stored schema can be got exactly as long as it is fresh. -/
theorem isSome_get?_of_stored {schema : σ} {time : τ}
    (stored : store.slots key = some (.stored schema time)) :
    (store.get? key).isSome = store.isFresh time := by
  unfold get?
  rw [known?_of_stored stored]
  cases store.isFresh time <;> rfl

theorem get?_of_empty (empty : store.slots key = none) : store.get? key = none := by
  simp [get?, known?, empty]

end Known

variable [DecidableEq κ] {other : κ} {slot : Option (Slot σ τ)} {schema : σ}

@[simp]
theorem slots_setSlot :
    (store.setSlot other slot).slots key = if key = other then slot else store.slots key :=
  rfl

@[simp]
theorem slots_put :
    (store.put other schema).slots key =
      if key = other then some (.stored schema store.now) else store.slots key :=
  rfl

@[simp]
theorem slots_launch {flight : Flight κ φ} :
    (store.launch flight).slots key =
      if key = flight.key then some .loading else store.slots key :=
  rfl

theorem slots_invalidate_of_ne (different : key ≠ other) :
    (store.invalidate other).slots key = store.slots key := by
  unfold invalidate
  split
  · rfl
  · simp [different]

theorem slots_settle_of_ne (different : key ≠ other) (outcome : Outcome σ ε) :
    (store.settle other outcome).slots key = store.slots key := by
  cases outcome <;> simp [settle, different]

/-- Dropping a stored schema neither sets nor takes away a mark. -/
theorem isLoading_invalidate : (store.invalidate other).isLoading key = store.isLoading key := by
  unfold invalidate
  split
  · rfl
  next unmarked =>
    by_cases same : key = other
    · subst same
      simpa [isLoading] using unmarked
    · exact isLoading_congr (by simp [same])

end Slots

/-! ## The flights of a key -/

section Flights

variable [DecidableEq κ] {store : Store κ σ τ φ} {key : κ}

/-- The flights under way for a key, in the order of their starts. -/
def flightsOf (store : Store κ σ τ φ) (key : κ) : List (Flight κ φ) :=
  store.flights.filter (·.key = key)

theorem key_of_mem_flightsOf {flight : Flight κ φ} (member : flight ∈ store.flightsOf key) :
    flight.key = key :=
  of_decide_eq_true (List.mem_filter.mp member).2

@[simp]
theorem flightsOf_setSlot {other : κ} {slot : Option (Slot σ τ)} :
    (store.setSlot other slot).flightsOf key = store.flightsOf key :=
  rfl

@[simp]
theorem flightsOf_put {other : κ} {schema : σ} :
    (store.put other schema).flightsOf key = store.flightsOf key :=
  rfl

@[simp]
theorem flightsOf_invalidate {other : κ} :
    (store.invalidate other).flightsOf key = store.flightsOf key := by
  unfold invalidate
  split <;> rfl

theorem flightsOf_launch {flight : Flight κ φ} :
    (store.launch flight).flightsOf key =
      if flight.key = key then store.flightsOf key ++ [flight] else store.flightsOf key := by
  by_cases same : flight.key = key <;> simp [launch, flightsOf, List.filter_append, same]

end Flights

/-! ## Ends of flights -/

section Ends

variable [DecidableEq κ] [DecidableEq φ] {store next : Store κ σ τ φ} {flight : Flight κ φ}
  {name : φ} {outcome : Outcome σ ε}

/-- The flight that ends is the first one under way with the name, and it alone is taken away. -/
theorem conclude?_eq_some_iff :
    store.conclude? name outcome = some (flight, next) ↔
      flight.name = name ∧
        ∃ front back, store.flights = front ++ flight :: back ∧
          (∀ other ∈ front, other.name ≠ name) ∧
            next = { store.settle flight.key outcome with flights := front ++ back } := by
  have erased : ∀ {front back : List (Flight κ φ)} {first : Flight κ φ}, first.name = name →
      (∀ other ∈ front, other.name ≠ name) →
        (front ++ first :: back).eraseP (·.name = name) = front ++ back := by
    intro front back first named others
    rw [List.eraseP_append_right _ (by simpa using others),
      List.eraseP_cons_of_pos (by simpa using named)]
  constructor
  · intro ended
    obtain ⟨found, isFound, ⟨⟩⟩ := Option.map_eq_some_iff.mp ended
    obtain ⟨named, front, back, flights, others⟩ := List.find?_eq_some_iff_append.mp isFound
    have sameName : flight.name = name := of_decide_eq_true named
    have otherNames : ∀ other ∈ front, other.name ≠ name := by simpa using others
    exact ⟨sameName, front, back, flights, otherNames, by rw [flights, erased sameName otherNames]⟩
  · rintro ⟨named, front, back, flights, others, rfl⟩
    have found : store.flights.find? (·.name = name) = some flight :=
      List.find?_eq_some_iff_append.mpr
        ⟨decide_eq_true named, front, back, flights, by simpa using others⟩
    rw [conclude?, found, flights, erased named others]
    rfl

/-- The flight that ends is one of those under way, and it alone is taken away. -/
theorem exists_flights_of_conclude?
    (ended : store.conclude? name outcome = some (flight, next)) :
    ∃ front back, store.flights = front ++ flight :: back ∧
      next = { store.settle flight.key outcome with flights := front ++ back } := by
  obtain ⟨-, front, back, flights, -, rest⟩ := conclude?_eq_some_iff.mp ended
  exact ⟨front, back, flights, rest⟩

theorem slots_of_conclude? (ended : store.conclude? name outcome = some (flight, next)) :
    next.slots = (store.settle flight.key outcome).slots := by
  obtain ⟨front, back, -, rfl⟩ := exists_flights_of_conclude? ended
  rfl

variable {key : κ}

theorem mem_flightsOf_of_conclude? (ended : store.conclude? name outcome = some (flight, next))
    (same : flight.key = key) : flight ∈ store.flightsOf key := by
  obtain ⟨front, back, flights, -⟩ := exists_flights_of_conclude? ended
  simp [flightsOf, flights, same]

theorem flightsOf_of_conclude?_of_ne
    (ended : store.conclude? name outcome = some (flight, next)) (different : flight.key ≠ key) :
    next.flightsOf key = store.flightsOf key := by
  obtain ⟨front, back, flights, rfl⟩ := exists_flights_of_conclude? ended
  simp [flightsOf, flights, different]

theorem length_flightsOf_of_conclude?
    (ended : store.conclude? name outcome = some (flight, next)) (same : flight.key = key) :
    (next.flightsOf key).length + 1 = (store.flightsOf key).length := by
  obtain ⟨front, back, flights, rfl⟩ := exists_flights_of_conclude? ended
  simp [flightsOf, flights, same, List.filter_append, Nat.add_assoc]

theorem flightsOf_sublist_of_conclude?
    (ended : store.conclude? name outcome = some (flight, next)) :
    (next.flightsOf key).Sublist (store.flightsOf key) := by
  obtain ⟨front, back, flights, rfl⟩ := exists_flights_of_conclude? ended
  unfold flightsOf
  rw [flights]
  apply List.Sublist.filter
  exact (List.sublist_cons_self flight back).append_left front

end Ends

/-! ## Runs -/

section Runs

variable [DecidableEq κ] [DecidableEq φ] [Sub τ] [LT τ] [DecidableLT τ] {store : Store κ σ τ φ}

@[simp]
theorem run_nil : store.run ([] : List (Step κ σ τ φ ε)) = ([], store) :=
  rfl

@[simp]
theorem run_cons {first : Step κ σ τ φ ε} {rest : List (Step κ σ τ φ ε)} :
    store.run (first :: rest) =
      ((store.step first).1 :: ((store.step first).2.run rest).1,
        ((store.step first).2.run rest).2) :=
  rfl

/-- No step changes how long a schema is fresh. -/
@[simp]
theorem lifetime_step {step : Step κ σ τ φ ε} : (store.step step).2.lifetime = store.lifetime := by
  cases step with
  | get | put | setClock => rfl
  | invalidate key =>
      simp only [Store.step, invalidate]
      split <;> rfl
  | request key name =>
      simp only [Store.step, lookUp]
      split <;> rfl
  | load key name =>
      simp only [Store.step, load, lookUp]
      split <;> rfl
  | conclude name outcome =>
      cases landed : store.conclude? name outcome with
      | none => simp [Store.step, landed]
      | some result =>
          obtain ⟨flight, next⟩ := result
          obtain ⟨front, back, -, rfl⟩ := exists_flights_of_conclude? landed
          cases outcome <;> simp [Store.step, landed, settle, put, setSlot]

@[simp]
theorem lifetime_run {steps : List (Step κ σ τ φ ε)} :
    (store.run steps).2.lifetime = store.lifetime := by
  induction steps generalizing store with
  | nil => rfl
  | cons first rest inductionHypothesis => simp [inductionHypothesis]

/-- Only the end of a flight is reported as one. -/
theorem exists_conclude?_of_step_eq_ended {step : Step κ σ τ φ ε} {flight : Flight κ φ}
    {outcome : Outcome σ ε} (ended : (store.step step).1 = .ended flight outcome) :
    ∃ name, step = .conclude name outcome ∧
      store.conclude? name outcome = some (flight, (store.step step).2) := by
  cases step with
  | get | put | invalidate | setClock => cases ended
  | request key name =>
      cases known : (store.lookUp ⟨name, key, false⟩).1 <;>
        simp [Store.step, Report.ofLookUp, known] at ended
  | load key name =>
      cases known : (store.lookUp ⟨name, key, true⟩).1 <;>
        simp [Store.step, load, Report.ofLookUp, known] at ended
  | conclude name other =>
      cases landed : store.conclude? name other with
      | none => simp [Store.step, landed] at ended
      | some result =>
          obtain ⟨rfl, rfl⟩ : result.1 = flight ∧ other = outcome := by
            simpa [Store.step, landed] using ended
          exact ⟨name, rfl, by simp [Store.step, landed]⟩

end Runs

end Typeahead.Store
