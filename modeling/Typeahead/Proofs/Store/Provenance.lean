import Typeahead.Proofs.Store.Availability
import Typeahead.Proofs.Store.Flights

/-!
# Where the schemas come from that a store hands out

A question that is answered at once hands out the schema that was stored last under its key, and
only while that schema is fresh: since then nothing else was stored there, no flight for the key
has failed, and the key was not invalidated. A question that starts a flight and waits for it hands
out what this flight brings, whatever has become of the slot in the meantime.
-/

namespace Typeahead

universe u v w x y

/-- What whoever waits for a flight is told at its end: the schema that it has brought, or none if
the collection could not be sampled. Nothing is told if something else went wrong. -/
def Outcome.answer? {σ : Type u} {ε : Type v} : Outcome σ ε → Option (Option σ)
  | .fetched schema => some (some schema)
  | .unsampled => some none
  | .failed _ | .cancelled => none

namespace Store

variable {κ : Type u} {σ : Type v} {τ : Type w} {φ : Type x} {ε : Type y}

/-- What a report hands out to whoever has asked, now or before. -/
def Report.handed? : Report κ σ φ ε → Option (Option σ)
  | .answered schema? => some schema?
  | .ended flight outcome => if flight.awaited then outcome.answer? else none
  | .silent | .started | .unknown => none

/-- A step asks for the schema of a key. -/
def Step.asks (key : κ) : Step κ σ τ φ ε → Prop
  | .get other | .request other _ | .load other _ => other = key
  | .put .. | .invalidate _ | .conclude .. | .setClock _ => False

variable [DecidableEq κ] [DecidableEq φ] [Sub τ] [LT τ] [DecidableLT τ]

/-! ## What becomes of a slot -/

/-- The schema that a step stores under a key: it is put there, or a flight brings it. -/
def storedUnder? (key : κ) (store : Store κ σ τ φ) (step : Step κ σ τ φ ε) : Option σ :=
  match step, (store.step step).1 with
  | .put other schema, _ => if other = key then some schema else none
  | _, .ended flight (.fetched schema) => if flight.key = key then some schema else none
  | _, _ => none

/-- A step takes away what is stored under a key: the key is invalidated, or a flight for it
fails. -/
def empties (key : κ) (store : Store κ σ τ φ) (step : Step κ σ τ φ ε) : Bool :=
  match step, (store.step step).1 with
  | .invalidate other, _ => other = key
  | _, .ended flight outcome => flight.key = key && outcome.fails
  | _, _ => false

/-- After a step, what was stored under a key before is not what counts there any more. -/
def supersedes (key : κ) (store : Store κ σ τ φ) (step : Step κ σ τ φ ε) : Bool :=
  (storedUnder? key store step).isSome || empties key store step

/-- One of the steps taken from a store has stored a schema under a key at a time, and none of the
steps behind it has superseded the schema. -/
def LatestStored (key : κ) (schema : σ) (time : τ) (store : Store κ σ τ φ)
    (steps : List (Step κ σ τ φ ε)) : Prop :=
  ∃ front storing back, steps = front ++ storing :: back ∧
    let earlier := (store.run front).2
    storedUnder? key earlier storing = some schema ∧ earlier.now = time ∧
      tally (supersedes key) (earlier.step storing).2 back = 0

section Slots

variable {store : Store κ σ τ φ} {key : κ} {schema : σ} {time : τ}

omit [DecidableEq φ] in
/-- A question does not store anything. -/
theorem slots_of_slots_lookUp {flight : Flight κ φ}
    (stored : (store.lookUp flight).2.slots key = some (.stored schema time)) :
    store.slots key = some (.stored schema time) := by
  cases known : store.known? flight.key with
  | some schema? => rwa [lookUp_of_known?_eq_some known] at stored
  | none =>
      rw [lookUp_of_known?_eq_none known, slots_launch] at stored
      split at stored
      · cases stored
      · exact stored

omit [DecidableEq φ] [Sub τ] [LT τ] [DecidableLT τ] in
/-- Invalidating a key does not store anything, and what it leaves under a key was there under
another one. -/
theorem slots_of_slots_invalidate {other : κ}
    (stored : (store.invalidate other).slots key = some (.stored schema time)) :
    other ≠ key ∧ store.slots key = some (.stored schema time) := by
  by_cases same : key = other
  · subst same
    unfold invalidate at stored
    split at stored
    next loading => simp [isLoading_eq_true_iff.mp loading] at stored
    next => simp at stored
  · rw [slots_invalidate_of_ne same] at stored
    exact ⟨Ne.symm same, stored⟩

/-- What is stored under a key after a step was stored by the step, or it was there before and the
step has not superseded it. -/
theorem slots_of_slots_step {step : Step κ σ τ φ ε}
    (stored : (store.step step).2.slots key = some (.stored schema time)) :
    (storedUnder? key store step = some schema ∧ store.now = time) ∨
      (store.slots key = some (.stored schema time) ∧ supersedes key store step = false) := by
  cases step with
  | get other => exact Or.inr ⟨stored, by simp [supersedes, storedUnder?, empties, Store.step]⟩
  | setClock now => exact Or.inr ⟨stored, by simp [supersedes, storedUnder?, empties, Store.step]⟩
  | put other newest =>
      by_cases same : key = other
      · subst same
        left
        simpa [Store.step, storedUnder?] using stored
      · right
        simpa [Store.step, supersedes, storedUnder?, empties, same, Ne.symm same] using stored
  | invalidate other =>
      obtain ⟨different, kept⟩ := slots_of_slots_invalidate stored
      exact Or.inr ⟨kept, by simp [supersedes, storedUnder?, empties, Store.step, different]⟩
  | request other name =>
      right
      refine ⟨slots_of_slots_lookUp stored, ?_⟩
      cases known : (store.lookUp ⟨name, other, false⟩).1 <;>
        simp [supersedes, storedUnder?, empties, Store.step, Report.ofLookUp, known]
  | load other name =>
      right
      refine ⟨slots_of_slots_lookUp stored, ?_⟩
      cases known : (store.lookUp ⟨name, other, true⟩).1 <;>
        simp [supersedes, storedUnder?, empties, Store.step, load, Report.ofLookUp, known]
  | conclude name outcome =>
      cases landed : store.conclude? name outcome with
      | none =>
          right
          simpa [supersedes, storedUnder?, empties, Store.step, landed] using stored
      | some result =>
          obtain ⟨flight, next⟩ := result
          have slots := slots_of_conclude? landed
          by_cases same : flight.key = key
          · cases outcome <;>
              simp_all [supersedes, storedUnder?, empties, Store.step, settle, Outcome.fails]
          · right
            have kept : (store.settle flight.key outcome).slots key = store.slots key :=
              slots_settle_of_ne (Ne.symm same) outcome
            cases outcome <;>
              simp_all [supersedes, storedUnder?, empties, Store.step]

/-- What is stored under a key after a run was stored last by one of its steps, or it was there
before and no step has superseded it. -/
theorem slots_of_slots_run {steps : List (Step κ σ τ φ ε)}
    (stored : (store.run steps).2.slots key = some (.stored schema time)) :
    LatestStored key schema time store steps ∨
      (store.slots key = some (.stored schema time) ∧ tally (supersedes key) store steps = 0) := by
  induction steps generalizing store with
  | nil => exact Or.inr ⟨stored, rfl⟩
  | cons first rest inductionHypothesis =>
      have storedNext : ((store.step first).2.run rest).2.slots key =
          some (.stored schema time) := stored
      rcases inductionHypothesis storedNext with later | ⟨kept, undisturbed⟩
      · obtain ⟨front, storing, back, rfl, storedBy⟩ := later
        exact Or.inl ⟨first :: front, storing, back, rfl, storedBy⟩
      · rcases slots_of_slots_step kept with ⟨storedNow, now⟩ | ⟨before, lasting⟩
        · exact Or.inl ⟨[], first, rest, rfl, storedNow, now, undisturbed⟩
        · exact Or.inr ⟨before, by simp [tally, lasting, undisturbed]⟩

/-- In a store without slots all that is stored was stored by the run. -/
theorem latestStored_of_run {lifetime now : τ} {steps : List (Step κ σ τ φ ε)}
    (stored : (({ lifetime, now } : Store κ σ τ φ).run steps).2.slots key =
      some (.stored schema time)) :
    LatestStored key schema time { lifetime, now } steps := by
  rcases slots_of_slots_run stored with latest | ⟨impossible, -⟩
  · exact latest
  · cases impossible

end Slots

/-! ## What a question is told -/

section Questions

variable {store : Store κ σ τ φ} {key : κ} {schema : σ}

omit [DecidableEq κ] [DecidableEq φ] in
/-- The fresh schema of a key is the one in its slot. -/
theorem exists_slots_of_known? (known : store.known? key = some (some schema)) :
    ∃ time, store.slots key = some (.stored schema time) ∧ store.isFresh time = true := by
  unfold known? at known
  split at known
  · cases known
  next newest time stored =>
      split at known
      next fresh =>
          cases known
          exact ⟨time, stored, fresh⟩
      · cases known
  · cases known

omit [DecidableEq κ] [DecidableEq φ] in
theorem known?_of_get?_eq_some (got : store.get? key = some schema) :
    store.known? key = some (some schema) := by
  unfold get? at got
  cases known : store.known? key with
  | none => simp [known] at got
  | some schema? => simpa [known] using got

omit [DecidableEq φ] in
theorem known?_of_lookUp_eq_some {flight : Flight κ φ} {schema? : Option σ}
    (answered : (store.lookUp flight).1 = some schema?) :
    store.known? flight.key = some schema? := by
  cases known : store.known? flight.key with
  | none => simp [lookUp_of_known?_eq_none known] at answered
  | some other => simpa [lookUp_of_known?_eq_some known] using answered

/-- A question that is handed a schema at once is handed the one in the slot of its key. -/
theorem exists_slots_of_handed? {question : Step κ σ τ φ ε} (asks : question.asks key)
    (handed : (store.step question).1.handed? = some (some schema)) :
    ∃ time, store.slots key = some (.stored schema time) ∧ store.isFresh time = true := by
  apply exists_slots_of_known?
  cases question with
  | get other =>
      obtain rfl : other = key := asks
      apply known?_of_get?_eq_some
      simpa [Store.step, Report.handed?] using handed
  | request other name =>
      obtain rfl : other = key := asks
      have answered : (store.lookUp ⟨name, other, false⟩).1 = some (some schema) := by
        cases known : (store.lookUp ⟨name, other, false⟩).1 <;>
          simp_all [Store.step, Report.ofLookUp, Report.handed?]
      exact known?_of_lookUp_eq_some answered
  | load other name =>
      obtain rfl : other = key := asks
      have answered : (store.lookUp ⟨name, other, true⟩).1 = some (some schema) := by
        cases known : (store.lookUp ⟨name, other, true⟩).1 <;>
          simp_all [Store.step, load, Report.ofLookUp, Report.handed?]
      exact known?_of_lookUp_eq_some answered
  | put | invalidate | conclude | setClock => cases asks

end Questions

/-! ## What an awaited flight brings -/

section Awaited

variable {store : Store κ σ τ φ} {name : φ} {flight : Flight κ φ}

/-- A question may start a flight; those that are under way before stay in front of it. -/
theorem find?_flights_lookUp {asked : Flight κ φ}
    (found : store.flights.find? (·.name = name) = some flight) :
    (store.lookUp asked).2.flights.find? (·.name = name) = some flight := by
  cases known : store.known? asked.key with
  | some schema? => rwa [lookUp_of_known?_eq_some known]
  | none =>
      rw [lookUp_of_known?_eq_none known, launch, List.find?_append, found]
      rfl

omit [Sub τ] [LT τ] [DecidableLT τ] in
/-- The end of a flight leaves those of other names under way. -/
theorem find?_flights_of_conclude? {other : φ} {ended : Flight κ φ} {outcome : Outcome σ ε}
    {next : Store κ σ τ φ} (landed : store.conclude? other outcome = some (ended, next))
    (different : other ≠ name) :
    next.flights.find? (·.name = name) = store.flights.find? (·.name = name) := by
  obtain ⟨rfl, front, back, flights, -, rfl⟩ := conclude?_eq_some_iff.mp landed
  simp [flights, different]

/-- A flight stays under way until a step ends the one of its name. -/
theorem find?_flights_step {step : Step κ σ τ φ ε}
    (found : store.flights.find? (·.name = name) = some flight)
    (lasting : ∀ outcome, step ≠ .conclude name outcome) :
    (store.step step).2.flights.find? (·.name = name) = some flight := by
  cases step with
  | get | put | setClock => exact found
  | invalidate key =>
      have same : (store.invalidate key).flights = store.flights := by
        unfold invalidate
        split <;> rfl
      simpa [Store.step, same] using found
  | request key asked => exact find?_flights_lookUp found
  | load key asked => exact find?_flights_lookUp found
  | conclude other outcome =>
      have different : other ≠ name := by
        rintro rfl
        exact lasting outcome rfl
      cases landed : store.conclude? other outcome with
      | none => simpa [Store.step, landed] using found
      | some result =>
          simpa [Store.step, landed] using
            (find?_flights_of_conclude? landed different).trans found

/-- A flight stays under way in a run that does not end the one of its name. -/
theorem find?_flights_run {steps : List (Step κ σ τ φ ε)}
    (found : store.flights.find? (·.name = name) = some flight)
    (lasting : ∀ outcome, .conclude name outcome ∉ steps) :
    (store.run steps).2.flights.find? (·.name = name) = some flight := by
  induction steps generalizing store with
  | nil => exact found
  | cons first rest inductionHypothesis =>
      have foundNext : (store.step first).2.flights.find? (·.name = name) = some flight := by
        apply find?_flights_step found
        rintro outcome rfl
        exact lasting outcome List.mem_cons_self
      apply inductionHypothesis foundNext
      intro outcome member
      exact lasting outcome (List.mem_cons_of_mem first member)

/-- Whoever ends the first flight under way with a name is told of its end. -/
theorem step_conclude_of_find? (found : store.flights.find? (·.name = name) = some flight)
    (outcome : Outcome σ ε) :
    (store.step (.conclude name outcome)).1 = .ended flight outcome := by
  simp [Store.step, conclude?, found]

/-- A question that has started a flight with a fresh name finds it first under that name. -/
theorem find?_flights_of_load_started {key : κ} (fresh : ∀ other ∈ store.flights, other.name ≠ name)
    (started : (store.step (.load key name : Step κ σ τ φ ε)).1 = .started) :
    (store.step (.load key name : Step κ σ τ φ ε)).2.flights.find? (·.name = name) =
      some ⟨name, key, true⟩ := by
  let asked : Flight κ φ := ⟨name, key, true⟩
  have unknown : store.known? asked.key = none := ofLookUp_lookUp_eq_started_iff.mp started
  have launched : (store.step (.load key name : Step κ σ τ φ ε)).2 = store.launch asked :=
    congrArg Prod.snd (lookUp_of_known?_eq_none unknown)
  have noOther : store.flights.find? (·.name = name) = none := by simpa using fresh
  rw [launched, launch, List.find?_append, noOther]
  simp [asked]

end Awaited

/-! ## What a store hands out -/

/-- In every state that a store without slots can reach, a question that is handed a schema at once
is handed the one that was stored last under its own key, no longer ago than the lifetime; and a
question that starts a flight with a fresh name and waits for it is told, whenever that flight ends,
exactly what it has brought. -/
theorem handed?_reached (lifetime now : τ) (steps : List (Step κ σ τ φ ε)) (key : κ) :
    let empty : Store κ σ τ φ := { lifetime, now }
    let reached := (empty.run steps).2
    (∀ (question : Step κ σ τ φ ε) schema, question.asks key →
        (reached.step question).1.handed? = some (some schema) →
          ∃ time, LatestStored key schema time empty steps ∧ reached.now - time < lifetime) ∧
      ∀ name, (∀ flight ∈ reached.flights, flight.name ≠ name) →
        (reached.step (.load key name : Step κ σ τ φ ε)).1 = .started →
          ∀ (later : List (Step κ σ τ φ ε)), (∀ outcome, .conclude name outcome ∉ later) →
            ∀ outcome : Outcome σ ε,
              (((reached.step (.load key name : Step κ σ τ φ ε)).2.run later).2.step
                (.conclude name outcome)).1.handed? = outcome.answer? := by
  intro empty reached
  constructor
  · intro question schema asks handed
    obtain ⟨time, stored, fresh⟩ := exists_slots_of_handed? asks handed
    refine ⟨time, latestStored_of_run stored, ?_⟩
    have lifetimeKept : reached.lifetime = lifetime := lifetime_run
    rw [← lifetimeKept]
    exact of_decide_eq_true fresh
  · intro name fresh started later lasting outcome
    have found := find?_flights_run (find?_flights_of_load_started fresh started) lasting
    rw [step_conclude_of_find? found]
    rfl

/-- A schema that a flight has brought is handed out although the clock was set back since and a
schema was put under another key; and whoever waits for a flight is told what it has brought
although a schema was put in the place of its mark. -/
theorem handed?_reached_interleaved :
    let steps : List (Step Nat Nat Int Nat Unit) :=
      [.request 0 1, .put 1 5, .conclude 1 (.fetched 7), .setClock (-4)]
    let empty : Store Nat Nat Int Nat := { lifetime := 10, now := 0 }
    let reached := (empty.run steps).2
    (∃ time, LatestStored 0 7 time empty steps ∧ reached.now - time < 10) ∧
      (((reached.step (.load 2 3 : Step Nat Nat Int Nat Unit)).2.run
        [.put 2 8, (.setClock 6 : Step Nat Nat Int Nat Unit)]).2.step
          (.conclude 3 (.fetched 6) : Step Nat Nat Int Nat Unit)).1.handed? = some (some 6) := by
  intro steps empty reached
  constructor
  · exact (handed?_reached 10 0 steps 0).1 (.load 0 2) 7 rfl (by decide)
  · exact (handed?_reached 10 0 steps 2).2 3 (by decide) rfl _ (by simp) (.fetched 6)

end Store

end Typeahead
