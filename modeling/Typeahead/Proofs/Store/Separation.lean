import Typeahead.Proofs.Store.Steps

/-!
# Keys do not interfere

The slots of a store are apart, and a flight writes to the slot of its own key alone. So nothing
that is told about a key depends on what happens to the others: the steps of a run that concern the
key, taken by themselves, tell the same. They tell it in a store that agrees with the one of the whole
run on the slot of the key and on the clock, and in which the flights for the key are the only ones.
-/

namespace Typeahead.Store

universe u v w x y

variable {κ : Type u} {σ : Type v} {τ : Type w} {φ : Type x} {ε : Type y}

/-! ## The part of a run that concerns a key -/

/-- A step of a run, seen with a key in mind. -/
structure Entry (κ : Type u) (σ : Type v) (τ : Type w) (φ : Type x) (ε : Type y) where
  step : Step κ σ τ φ ε
  report : Report κ σ φ ε
  /-- The key is marked as loading after the step. -/
  loading : Bool
  /-- The step concerns the key. -/
  concerning : Bool

section Concerns

variable [DecidableEq κ] [DecidableEq φ]

/-- A step concerns a key: it is an operation on the key, it ends a flight for the key or none at
all, or it changes the clock. -/
def concerns (key : κ) (store : Store κ σ τ φ) : Step κ σ τ φ ε → Bool
  | .get other | .put other _ | .invalidate other | .request other _ | .load other _ => other = key
  | .conclude name _ => (store.flights.find? (·.name = name)).all (·.key = key)
  | .setClock _ => true

/-- The steps of a run, with what they tell about a key. -/
def history [Sub τ] [LT τ] [DecidableLT τ] (key : κ) :
    Store κ σ τ φ → List (Step κ σ τ φ ε) → List (Entry κ σ τ φ ε)
  | _, [] => []
  | store, first :: rest =>
      let (report, next) := store.step first
      ⟨first, report, next.isLoading key, store.concerns key first⟩ :: history key next rest

end Concerns

/-! ## A store for one key -/

/-- One store holds of another what concerns a key. -/
structure Sees [DecidableEq κ] (key : κ) (part whole : Store κ σ τ φ) : Prop where
  lifetime : part.lifetime = whole.lifetime
  now : part.now = whole.now
  slot : part.slots key = whole.slots key
  flights : part.flights = whole.flightsOf key

namespace Sees

section Operations

variable [DecidableEq κ] {part whole : Store κ σ τ φ} {key other : κ}

theorem isLoading_eq (sees : Sees key part whole) : part.isLoading key = whole.isLoading key :=
  isLoading_congr sees.slot

theorem setSlot (sees : Sees key part whole) (slot : Option (Slot σ τ)) :
    Sees key (part.setSlot key slot) (whole.setSlot key slot) :=
  ⟨sees.lifetime, sees.now, by simp, sees.flights⟩

theorem setSlot_other (sees : Sees key part whole) (different : other ≠ key)
    (slot : Option (Slot σ τ)) : Sees key part (whole.setSlot other slot) :=
  ⟨sees.lifetime, sees.now, by simpa [different.symm] using sees.slot, sees.flights⟩

theorem put (sees : Sees key part whole) (schema : σ) :
    Sees key (part.put key schema) (whole.put key schema) := by
  unfold Store.put
  rw [sees.now]
  exact sees.setSlot _

theorem invalidate (sees : Sees key part whole) :
    Sees key (part.invalidate key) (whole.invalidate key) := by
  unfold Store.invalidate
  rw [sees.isLoading_eq]
  split
  · exact sees
  · exact sees.setSlot none

theorem invalidate_other (sees : Sees key part whole) (different : other ≠ key) :
    Sees key part (whole.invalidate other) := by
  unfold Store.invalidate
  split
  · exact sees
  · exact sees.setSlot_other different none

theorem settle (sees : Sees key part whole) (outcome : Outcome σ ε) :
    Sees key (part.settle key outcome) (whole.settle key outcome) := by
  cases outcome with
  | fetched schema => exact sees.put schema
  | unsampled | failed => exact sees.setSlot none
  | cancelled => exact sees

theorem settle_other (sees : Sees key part whole) (different : other ≠ key)
    (outcome : Outcome σ ε) : Sees key part (whole.settle other outcome) := by
  cases outcome with
  | fetched | unsampled | failed => exact sees.setSlot_other different _
  | cancelled => exact sees

theorem launch (sees : Sees key part whole) {flight : Flight κ φ} (same : flight.key = key) :
    Sees key (part.launch flight) (whole.launch flight) := by
  refine ⟨sees.lifetime, sees.now, by simp [same], ?_⟩
  rw [flightsOf_launch, if_pos same, ← sees.flights]
  rfl

theorem launch_other (sees : Sees key part whole) {flight : Flight κ φ}
    (different : flight.key ≠ key) : Sees key part (whole.launch flight) := by
  refine ⟨sees.lifetime, sees.now, by simpa [different.symm] using sees.slot, ?_⟩
  rw [flightsOf_launch, if_neg different, sees.flights]

end Operations

section Questions

variable [DecidableEq κ] [Sub τ] [LT τ] [DecidableLT τ] {part whole : Store κ σ τ φ} {key : κ}

theorem known?_eq (sees : Sees key part whole) : part.known? key = whole.known? key := by
  have fresh : ∀ time, part.isFresh time = whole.isFresh time := by
    intro time
    unfold isFresh
    rw [sees.lifetime, sees.now]
  unfold known?
  rw [sees.slot]
  simp only [fresh]

theorem lookUp (sees : Sees key part whole) {flight : Flight κ φ} (same : flight.key = key) :
    (part.lookUp flight).1 = (whole.lookUp flight).1 ∧
      Sees key (part.lookUp flight).2 (whole.lookUp flight).2 := by
  subst same
  unfold Store.lookUp
  rw [sees.known?_eq]
  split
  · exact ⟨rfl, sees⟩
  · exact ⟨rfl, sees.launch rfl⟩

theorem lookUp_other (sees : Sees key part whole) {flight : Flight κ φ}
    (different : flight.key ≠ key) : Sees key part (whole.lookUp flight).2 := by
  unfold Store.lookUp
  split
  · exact sees
  · exact sees.launch_other different

end Questions

section Ends

variable [DecidableEq κ] [DecidableEq φ] {part whole next : Store κ σ τ φ} {key : κ}
  {flight : Flight κ φ} {name : φ} {outcome : Outcome σ ε}

/-- A flight for the key ends in the part as it ends in the whole. -/
theorem exists_conclude? (sees : Sees key part whole)
    (ended : whole.conclude? name outcome = some (flight, next)) (same : flight.key = key) :
    ∃ partNext, part.conclude? name outcome = some (flight, partNext) ∧ Sees key partNext next := by
  subst same
  obtain ⟨named, front, back, flights, others, rfl⟩ := conclude?_eq_some_iff.mp ended
  have settled := sees.settle outcome
  let partFront := front.filter (·.key = flight.key)
  let partBack := back.filter (·.key = flight.key)
  have partFlights : part.flights = partFront ++ flight :: partBack := by
    rw [sees.flights, flightsOf, flights]
    simp [partFront, partBack]
  have partOthers : ∀ other ∈ partFront, other.name ≠ name :=
    fun other member => others other (List.mem_filter.mp member).1
  refine ⟨_, conclude?_eq_some_iff.mpr
    ⟨named, partFront, partBack, partFlights, partOthers, rfl⟩, ?_⟩
  exact ⟨settled.lifetime, settled.now, settled.slot, by simp [flightsOf, partFront, partBack]⟩

/-- The end of a flight for another key shows nothing in the part. -/
theorem conclude?_other (sees : Sees key part whole)
    (ended : whole.conclude? name outcome = some (flight, next)) (different : flight.key ≠ key) :
    Sees key part next := by
  have flights := flightsOf_of_conclude?_of_ne ended different
  have settled := sees.settle_other different outcome
  obtain ⟨-, front, back, -, -, rfl⟩ := conclude?_eq_some_iff.mp ended
  exact ⟨settled.lifetime, settled.now, settled.slot, by rw [flights, sees.flights]⟩

/-- Where the whole has no flight of a name, the part has none. -/
theorem conclude?_eq_none (sees : Sees key part whole)
    (absent : whole.conclude? name outcome = none) : part.conclude? name outcome = none := by
  simp only [conclude?, Option.map_eq_none_iff, List.find?_eq_none] at absent ⊢
  intro flight member
  rw [sees.flights] at member
  exact absent flight (List.mem_filter.mp member).1

theorem concerns_conclude_of_some
    (ended : whole.conclude? name outcome = some (flight, next)) :
    whole.concerns key (.conclude name outcome : Step κ σ τ φ ε) = decide (flight.key = key) := by
  obtain ⟨found, isFound, ⟨⟩⟩ := Option.map_eq_some_iff.mp ended
  simp [concerns, isFound]

theorem concerns_conclude_of_none (ended : whole.conclude? name outcome = none) :
    whole.concerns key (.conclude name outcome : Step κ σ τ φ ε) = true := by
  simp [concerns, Option.map_eq_none_iff.mp ended]

end Ends

/-! ## Steps and runs -/

section Runs

variable [DecidableEq κ] [DecidableEq φ] [Sub τ] [LT τ] [DecidableLT τ]
  {part whole : Store κ σ τ φ} {key : κ} {step : Step κ σ τ φ ε}

/-- A step that concerns the key tells the same in both stores, and they still agree after it. -/
theorem step_of_concerns (sees : Sees key part whole)
    (concerning : whole.concerns key step = true) :
    (part.step step).1 = (whole.step step).1 ∧ Sees key (part.step step).2 (whole.step step).2 ∧
      part.concerns key step = true := by
  cases step with
  | get other =>
      obtain rfl : other = key := of_decide_eq_true concerning
      exact ⟨congrArg (Report.answered ∘ Option.join) sees.known?_eq, sees, concerning⟩
  | put other schema =>
      obtain rfl : other = key := of_decide_eq_true concerning
      exact ⟨rfl, sees.put schema, concerning⟩
  | invalidate other =>
      obtain rfl : other = key := of_decide_eq_true concerning
      exact ⟨rfl, sees.invalidate, concerning⟩
  | request other name =>
      let asked : Flight κ φ := ⟨name, other, false⟩
      have same : asked.key = key := of_decide_eq_true concerning
      obtain ⟨told, agrees⟩ := sees.lookUp same
      exact ⟨congrArg Report.ofLookUp told, agrees, concerning⟩
  | load other name =>
      let asked : Flight κ φ := ⟨name, other, true⟩
      have same : asked.key = key := of_decide_eq_true concerning
      obtain ⟨told, agrees⟩ := sees.lookUp same
      exact ⟨congrArg Report.ofLookUp told, agrees, concerning⟩
  | conclude name outcome =>
      cases ended : whole.conclude? name outcome with
      | none =>
          have partEnded := sees.conclude?_eq_none ended
          refine ⟨?_, ?_, concerns_conclude_of_none partEnded⟩ <;>
            simp [Store.step, ended, partEnded, sees]
      | some result =>
          obtain ⟨flight, next⟩ := result
          rw [concerns_conclude_of_some ended] at concerning
          obtain ⟨partNext, partEnded, agrees⟩ :=
            sees.exists_conclude? ended (of_decide_eq_true concerning)
          refine ⟨?_, ?_, (concerns_conclude_of_some partEnded).trans concerning⟩ <;>
            simp [Store.step, ended, partEnded, agrees]
  | setClock time => exact ⟨rfl, ⟨sees.lifetime, rfl, sees.slot, sees.flights⟩, rfl⟩

/-- A step that does not concern the key changes nothing in the part that does. -/
theorem step_of_not_concerns (sees : Sees key part whole)
    (aside : whole.concerns key step = false) : Sees key part (whole.step step).2 := by
  cases step with
  | get => exact sees
  | put other schema => exact sees.setSlot_other (of_decide_eq_false aside) _
  | invalidate other => exact sees.invalidate_other (of_decide_eq_false aside)
  | request other name => exact sees.lookUp_other (of_decide_eq_false aside)
  | load other name => exact sees.lookUp_other (of_decide_eq_false aside)
  | conclude name outcome =>
      cases ended : whole.conclude? name outcome with
      | none => simp [concerns_conclude_of_none ended] at aside
      | some result =>
          obtain ⟨flight, next⟩ := result
          rw [concerns_conclude_of_some ended] at aside
          simpa [Store.step, ended] using sees.conclude?_other ended (of_decide_eq_false aside)
  | setClock => cases aside

/-- The steps of a run that concern the key tell the same in the part as in the whole. -/
theorem history_eq (sees : Sees key part whole) (steps : List (Step κ σ τ φ ε)) :
    let about := (history key whole steps).filter (·.concerning)
    history key part (about.map (·.step)) = about := by
  induction steps generalizing part whole with
  | nil => rfl
  | cons first rest inductionHypothesis =>
      cases concerning : whole.concerns key first with
      | false => simpa [history, concerning] using
          inductionHypothesis (sees.step_of_not_concerns concerning)
      | true =>
          obtain ⟨told, agrees, partConcerning⟩ := sees.step_of_concerns concerning
          simpa [history, concerning, partConcerning, told, agrees.isLoading_eq] using
            inductionHypothesis agrees

end Runs

end Sees

/-! ## The run of the steps that concern a key -/

variable [DecidableEq κ] [DecidableEq φ] [Sub τ] [LT τ] [DecidableLT τ]

/-- The history of a run has what the run tells. -/
theorem map_report_history (key : κ) (store : Store κ σ τ φ) (steps : List (Step κ σ τ φ ε)) :
    (history key store steps).map (·.report) = (store.run steps).1 := by
  induction steps generalizing store with
  | nil => rfl
  | cons first rest inductionHypothesis => simp [history, inductionHypothesis]

/-- The steps of a run that concern a key, taken by themselves from a store without slots, tell
exactly what they tell in the run: all reports are the same, those on started flights included, and
so is after each step whether the key is loading. -/
theorem history_steps_concerning (lifetime now : τ) (steps : List (Step κ σ τ φ ε)) (key : κ) :
    let empty : Store κ σ τ φ := { lifetime, now }
    let about := (history key empty steps).filter (·.concerning)
    history key empty (about.map (·.step)) = about ∧
      (empty.run (about.map (·.step))).1 = about.map (·.report) := by
  intro empty about
  have sees : Sees key empty empty := ⟨rfl, rfl, rfl, rfl⟩
  have same : history key empty (about.map (·.step)) = about := sees.history_eq steps
  exact ⟨same, by rw [← map_report_history key, same]⟩

end Typeahead.Store
