import Typeahead.Proofs.Store.Flights

/-!
# Keys that are marked as loading without a flight

A mark is set together with a flight, and the end of the flight takes it away, whether the flight
has brought a schema or has failed. A flight that is given up takes no mark away, though. If it was
the only one for its key, the key is abandoned: it is marked, nothing is under way for it, and as
questions about a marked key start nothing, only a schema that is put there ends this.
-/

namespace Typeahead.Store

universe u v w x y

variable {κ : Type u} {σ : Type v} {τ : Type w} {φ : Type x} {ε : Type y}
variable [DecidableEq κ]

/-- The key is marked as loading, but no flight for it is under way. -/
def IsAbandoned (key : κ) (store : Store κ σ τ φ) : Prop :=
  store.isLoading key = true ∧ store.flightsOf key = []

variable [DecidableEq φ] [Sub τ] [LT τ] [DecidableLT τ]

/-- A flight is given up that is the only one for the key, while the key is marked. -/
def abandons (key : κ) (store : Store κ σ τ φ) (step : Step κ σ τ φ ε) : Bool :=
  match (store.step step).1 with
  | .ended flight .cancelled =>
      flight.key = key && store.isLoading key && (store.flightsOf key).length == 1
  | _ => false

variable {store next : Store κ σ τ φ} {key : κ}

/-! ## One step -/

omit [DecidableEq φ] in
/-- A question is answered at once where there is a mark, and starts nothing. -/
theorem lookUp_of_isLoading {flight : Flight κ φ} (loading : store.isLoading flight.key = true) :
    store.lookUp flight = (some none, store) := by
  apply lookUp_of_known?_eq_some
  simp [known?, isLoading_eq_true_iff.mp loading]

omit [DecidableEq φ] in
/-- A question neither abandons a key nor helps one that is abandoned. -/
theorem isAbandoned_lookUp_iff {flight : Flight κ φ} :
    (store.lookUp flight).2.IsAbandoned key ↔ store.IsAbandoned key := by
  rw [IsAbandoned, IsAbandoned]
  rcases lookUp_cases store key flight with ⟨marks, flights⟩ | ⟨unmarked, _, flights⟩
  · rw [marks, flights]
  · simp [unmarked, flights]

section Ends

omit [Sub τ] [LT τ] [DecidableLT τ]

variable {name : φ} {outcome : Outcome σ ε} {flight : Flight κ φ}

/-- The end of a flight takes away the mark of its key, unless the flight is given up. -/
theorem isLoading_of_conclude? (ended : store.conclude? name outcome = some (flight, next))
    (kept : outcome ≠ .cancelled) : next.isLoading flight.key = false := by
  have slots := congrFun (slots_of_conclude? ended) flight.key
  cases outcome with
  | fetched schema => simp [isLoading, slots, settle]
  | unsampled => simp [isLoading, slots, settle]
  | failed error => simp [isLoading, slots, settle]
  | cancelled => contradiction

/-- A flight that is given up leaves its key abandoned if and only if the key is marked and has no
other flight. -/
theorem isAbandoned_of_conclude?_cancelled
    (ended : store.conclude? name (.cancelled : Outcome σ ε) = some (flight, next)) :
    next.IsAbandoned flight.key ↔
      store.isLoading flight.key = true ∧ (store.flightsOf flight.key).length = 1 := by
  have marks : next.isLoading flight.key = store.isLoading flight.key :=
    isLoading_congr (congrFun (slots_of_conclude? ended) flight.key)
  have taken := length_flightsOf_of_conclude? ended rfl
  rw [IsAbandoned, marks, ← List.length_eq_zero_iff]
  apply and_congr_right
  intro _
  omega

end Ends

/-- A step leaves a key abandoned if it gives up the last flight, or if the key was abandoned
before and no schema is put there. -/
theorem isAbandoned_step_iff {step : Step κ σ τ φ ε} :
    (store.step step).2.IsAbandoned key ↔
      store.IsAbandoned key ∧ (∀ schema, step ≠ .put key schema) ∨
        abandons key store step = true := by
  cases step with
  | get other => simp [Store.step, abandons]
  | setClock time => simp [Store.step, abandons, IsAbandoned, isLoading, flightsOf]
  | put other schema =>
      by_cases same : other = key
      · subst same
        simp [Store.step, abandons, IsAbandoned, isLoading_put_self]
      · simp [Store.step, abandons, IsAbandoned, isLoading_put_of_ne same, same]
  | invalidate other => simp [Store.step, abandons, IsAbandoned, isLoading_invalidate]
  | request other name =>
      have asked := @isAbandoned_lookUp_iff _ _ _ _ _ _ _ _ store key ⟨name, other, false⟩
      cases known : (store.lookUp ⟨name, other, false⟩).1 <;>
        simp [Store.step, abandons, Report.ofLookUp, known, asked]
  | load other name =>
      have asked := @isAbandoned_lookUp_iff _ _ _ _ _ _ _ _ store key ⟨name, other, true⟩
      cases known : (store.lookUp ⟨name, other, true⟩).1 <;>
        simp [Store.step, load, abandons, Report.ofLookUp, known, asked]
  | conclude name outcome =>
      cases landed : store.conclude? name outcome with
      | none => simp [Store.step, abandons, landed]
      | some result =>
          obtain ⟨flight, next⟩ := result
          by_cases same : flight.key = key
          · subst same
            have underWay : store.flightsOf flight.key ≠ [] :=
              List.ne_nil_of_mem (mem_flightsOf_of_conclude? landed rfl)
            have before : ¬store.IsAbandoned flight.key := fun abandoned => underWay abandoned.2
            by_cases given : outcome = .cancelled
            · subst given
              simp [Store.step, abandons, landed, before, isAbandoned_of_conclude?_cancelled landed]
            · have unmarked := isLoading_of_conclude? landed given
              cases outcome <;>
                simp_all [Store.step, abandons, IsAbandoned]
          · have marks : next.isLoading key = store.isLoading key := by
              apply isLoading_congr
              rw [slots_of_conclude? landed, slots_settle_of_ne (Ne.symm same)]
            have flights := flightsOf_of_conclude?_of_ne landed same
            cases outcome <;>
              simp [Store.step, abandons, landed, IsAbandoned, marks, flights, same]

/-! ## Runs -/

/-- A run leaves a key abandoned if one of its steps gives up the last flight, or if the key was
abandoned before, and no schema is put there from then on. -/
theorem isAbandoned_run_iff {steps : List (Step κ σ τ φ ε)} :
    (store.run steps).2.IsAbandoned key ↔
      store.IsAbandoned key ∧ (∀ schema, .put key schema ∉ steps) ∨
        ∃ front giving back, steps = front ++ giving :: back ∧
          abandons key (store.run front).2 giving = true ∧ ∀ schema, .put key schema ∉ back := by
  induction steps generalizing store with
  | nil => simp
  | cons first rest inductionHypothesis =>
      rw [run_cons, inductionHypothesis, isAbandoned_step_iff]
      constructor
      · rintro (⟨⟨abandoned, other⟩ | given, kept⟩ | ⟨front, giving, back, rfl, given, kept⟩)
        · left
          refine ⟨abandoned, fun schema member => ?_⟩
          rcases List.mem_cons.mp member with now | later
          · exact other schema now.symm
          · exact kept schema later
        · exact .inr ⟨[], first, rest, rfl, given, kept⟩
        · exact .inr ⟨first :: front, giving, back, rfl, given, kept⟩
      · rintro (⟨abandoned, kept⟩ | ⟨front, giving, back, split, given, kept⟩)
        · left
          refine ⟨.inl ⟨abandoned, fun schema now => ?_⟩, fun schema later => ?_⟩
          · exact kept schema (List.mem_cons.mpr (.inl now.symm))
          · exact kept schema (List.mem_cons_of_mem _ later)
        · cases front with
          | nil =>
              obtain ⟨rfl, rfl⟩ := List.cons.inj split
              exact .inl ⟨.inr given, kept⟩
          | cons earlier front =>
              obtain ⟨rfl, rfl⟩ := List.cons.inj split
              exact .inr ⟨front, giving, back, rfl, given, kept⟩

/-- The run tells of each flight that is given up. -/
theorem exists_cancelled_of_abandons {front : List (Step κ σ τ φ ε)} {giving : Step κ σ τ φ ε}
    (given : abandons key (store.run front).2 giving = true) (back : List (Step κ σ τ φ ε)) :
    ∃ flight, flight.key = key ∧
      .ended flight .cancelled ∈ (store.run (front ++ giving :: back)).1 := by
  induction front generalizing store with
  | nil =>
      unfold abandons at given
      split at given
      next flight ended =>
        simp only [Bool.and_eq_true, decide_eq_true_eq] at given
        exact ⟨flight, given.1.1, List.mem_cons.mpr (.inl ended.symm)⟩
      next => contradiction
  | cons first rest inductionHypothesis =>
      obtain ⟨flight, same, told⟩ := inductionHypothesis given
      exact ⟨flight, same, List.mem_cons_of_mem _ told⟩

/-- In the states that a store without slots can reach, a key is marked while no flight for it is
under way if and only if its last flight was given up under the mark and no schema was put there
since. Questions about it start nothing then. As long as no flight for a key is given up, each mark
has a flight, and the end of this flight takes the mark away. -/
theorem isAbandoned_reached_iff (lifetime now : τ) (steps : List (Step κ σ τ φ ε)) (key : κ) :
    let empty : Store κ σ τ φ := { lifetime, now }
    let reached := (empty.run steps).2
    ((reached.isLoading key = true ∧ reached.flightsOf key = []) ↔
        ∃ front giving back, steps = front ++ giving :: back ∧
          abandons key (empty.run front).2 giving = true ∧
            ∀ schema, .put key schema ∉ back) ∧
      (reached.isLoading key = true → ∀ name,
        reached.step (.request key name : Step κ σ τ φ ε) = (.answered none, reached) ∧
          reached.step (.load key name : Step κ σ τ φ ε) = (.answered none, reached)) ∧
      ((∀ flight, .ended flight .cancelled ∈ (empty.run steps).1 → flight.key ≠ key) →
        reached.isLoading key = true →
          reached.flightsOf key ≠ [] ∧
            ∀ name (outcome : Outcome σ ε) flight next, flight.key = key →
              outcome ≠ .cancelled → reached.conclude? name outcome = some (flight, next) →
                next.isLoading key = false) := by
  intro empty reached
  have unmarked : ¬empty.IsAbandoned key := fun abandoned => Bool.false_ne_true abandoned.1
  have exact : reached.IsAbandoned key ↔ _ := isAbandoned_run_iff
  simp only [unmarked, false_and, false_or] at exact
  refine ⟨exact, fun loading name => ?_, fun landed loading => ⟨fun none => ?_, ?_⟩⟩
  · simp [Store.step, load, lookUp_of_isLoading, loading, Report.ofLookUp]
  · obtain ⟨front, giving, back, rfl, given, -⟩ := exact.mp ⟨loading, none⟩
    obtain ⟨flight, same, told⟩ := exists_cancelled_of_abandons given back
    exact landed flight told same
  · rintro name outcome flight next rfl kept ended
    exact isLoading_of_conclude? ended kept

/-- The flight that is given up is one for another key. -/
theorem isAbandoned_reached_otherKey :
    ((run ({ lifetime := 10, now := 0 } : Store Bool Nat Nat Nat)
      [.request true 1, .conclude 1 .unsampled, .request false 2, .conclude 2 .cancelled,
        (.request true 3 : Step Bool Nat Nat Nat Unit)]).2.flightsOf true) ≠ [] := by
  refine ((isAbandoned_reached_iff 10 0 _ true).2.2 ?_ rfl).1
  intro flight told
  simp [Store.step, lookUp, known?, launch, conclude?, settle, Report.ofLookUp] at told
  rw [told]
  decide

/-- A request whose flight is given up leaves its mark behind, and the next one starts nothing. -/
theorem isAbandoned_cancelled :
    let left : Store Unit Nat Nat Nat :=
      (run ({ lifetime := 10, now := 0 } : Store Unit Nat Nat Nat)
        [.request () 1, (.conclude 1 .cancelled : Step Unit Nat Nat Nat Unit)]).2
    left.isLoading () = true ∧ left.flightsOf () = [] ∧
      (left.request () 2).2.flightsOf () = [] := by
  decide

end Typeahead.Store
