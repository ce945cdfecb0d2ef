import Typeahead.Proofs.Store.Steps

/-!
# How long a stored schema can be got

A schema that is stored under a key can be got as long as the latest one stored there is fresh,
with two exceptions: the key is invalidated, or a flight fails that was under way for the key
already. A failing flight empties the slot of its key whatever it finds there.
-/

namespace Typeahead

universe u v w x y

/-- The flight has brought no schema, and was not given up either. -/
def Outcome.fails {σ : Type u} {ε : Type v} : Outcome σ ε → Bool
  | .unsampled | .failed _ => true
  | .fetched _ | .cancelled => false

namespace Store

variable {κ : Type u} {σ : Type v} {τ : Type w} {φ : Type x} {ε : Type y}
variable [DecidableEq κ] [DecidableEq φ] [Sub τ] [LT τ] [DecidableLT τ]

/-! ## When the latest schema was stored -/

/-- A schema is stored under the key: it is put there, or a flight brings it. -/
def storesUnder (key : κ) (store : Store κ σ τ φ) (step : Step κ σ τ φ ε) : Bool :=
  match step, (store.step step).1 with
  | .put other _, _ => other = key
  | _, .ended flight (.fetched _) => flight.key = key
  | _, _ => false

/-- The time at which the latest schema was stored under the key, in a run that begins when the
latest one is from the given time. -/
def storedAt (key : κ) : τ → Store κ σ τ φ → List (Step κ σ τ φ ε) → τ
  | time, _, [] => time
  | time, store, first :: rest =>
      storedAt key (if storesUnder key store first then store.now else time)
        (store.step first).2 rest

/-! ## What one step does to a stored schema -/

variable {store : Store κ σ τ φ} {key : κ} {schema : σ} {time : τ} {step : Step κ σ τ φ ε}

theorem slots_step_invalidate (stored : store.slots key = some (.stored schema time)) :
    (store.step (.invalidate key : Step κ σ τ φ ε)).2.slots key = none := by
  have unmarked : store.isLoading key = false := by
    simp [isLoading, stored]
  simp [Store.step, invalidate, unmarked]

/-- A failing flight empties the slot of its key. -/
theorem slots_step_of_fails {flight : Flight κ φ} {outcome : Outcome σ ε}
    (ended : (store.step step).1 = .ended flight outcome) (same : flight.key = key)
    (fails : outcome.fails = true) : (store.step step).2.slots key = none := by
  obtain ⟨name, -, landed⟩ := exists_conclude?_of_step_eq_ended ended
  rw [slots_of_conclude? landed]
  cases outcome <;> simp_all [Outcome.fails, settle]

omit [DecidableEq φ] in
/-- A question about another key, or about one with a fresh schema, leaves the slot alone. -/
theorem slots_lookUp_of_fresh (stored : store.slots key = some (.stored schema time))
    (fresh : store.isFresh time = true) (flight : Flight κ φ) :
    (store.lookUp flight).2.slots key = store.slots key := by
  unfold lookUp
  split
  · rfl
  next unknown =>
    have different : key ≠ flight.key := by
      rintro rfl
      simp [known?_of_stored stored, fresh] at unknown
    simp [different]

omit [DecidableEq φ] in
theorem flightsOf_lookUp_of_fresh (stored : store.slots key = some (.stored schema time))
    (fresh : store.isFresh time = true) (flight : Flight κ φ) :
    (store.lookUp flight).2.flightsOf key = store.flightsOf key := by
  unfold lookUp
  split
  · rfl
  next unknown =>
    rw [flightsOf_launch, if_neg]
    rintro rfl
    simp [known?_of_stored stored, fresh] at unknown

/-- A fresh schema stays stored, or is replaced by the one of now, in every step that does not
invalidate its key and in which no flight for the key fails. -/
theorem exists_slots_step_of_fresh (stored : store.slots key = some (.stored schema time))
    (fresh : store.isFresh time = true) (kept : step ≠ .invalidate key)
    (lands : ∀ flight ∈ store.flightsOf key, ∀ outcome,
      (store.step step).1 = .ended flight outcome → outcome.fails = false) :
    ∃ newest, (store.step step).2.slots key =
      some (.stored newest (if storesUnder key store step then store.now else time)) := by
  cases step with
  | get other => exact ⟨schema, stored⟩
  | setClock now => exact ⟨schema, stored⟩
  | put other newest =>
      by_cases same : other = key
      · exact ⟨newest, by simp [Store.step, storesUnder, same]⟩
      · exact ⟨schema, by simp [Store.step, storesUnder, same, Ne.symm same, stored]⟩
  | invalidate other =>
      have different : key ≠ other := fun same => kept (by rw [same])
      exact ⟨schema, (slots_invalidate_of_ne different).trans stored⟩
  | request other name =>
      have asked := slots_lookUp_of_fresh stored fresh ⟨name, other, false⟩
      refine ⟨schema, ?_⟩
      cases known : (store.lookUp ⟨name, other, false⟩).1 <;>
        simpa [Store.step, storesUnder, Report.ofLookUp, known] using asked.trans stored
  | load other name =>
      have asked := slots_lookUp_of_fresh stored fresh ⟨name, other, true⟩
      refine ⟨schema, ?_⟩
      cases known : (store.lookUp ⟨name, other, true⟩).1 <;>
        simpa [Store.step, load, storesUnder, Report.ofLookUp, known] using asked.trans stored
  | conclude name outcome =>
      cases landed : store.conclude? name outcome with
      | none => exact ⟨schema, by simp [Store.step, storesUnder, landed, stored]⟩
      | some result =>
          obtain ⟨flight, next⟩ := result
          have ended : store.step (.conclude name outcome) = (.ended flight outcome, next) := by
            simp [Store.step, landed]
          have slots := congrFun (slots_of_conclude? landed) key
          by_cases same : flight.key = key
          · have lasting := lands flight (mem_flightsOf_of_conclude? landed same) outcome
              (congrArg Prod.fst ended)
            cases outcome with
            | fetched newest =>
                exact ⟨newest, by simp [ended, slots, settle, storesUnder, same]⟩
            | cancelled => exact ⟨schema, by simp [ended, slots, settle, storesUnder, stored]⟩
            | unsampled | failed => cases lasting
          · refine ⟨schema, ?_⟩
            rw [ended, slots, slots_settle_of_ne (Ne.symm same) outcome, stored]
            cases outcome <;> simp [storesUnder, ended, same]

/-- No flight is started for a key with a fresh schema. -/
theorem flightsOf_step_subset_of_fresh (stored : store.slots key = some (.stored schema time))
    (fresh : store.isFresh time = true) (step : Step κ σ τ φ ε) :
    (store.step step).2.flightsOf key ⊆ store.flightsOf key := by
  cases step with
  | get other => exact List.Subset.refl _
  | put other newest => exact List.Subset.refl _
  | setClock now => exact List.Subset.refl _
  | invalidate other => simp [Store.step]
  | request other name => simp [Store.step, flightsOf_lookUp_of_fresh stored fresh]
  | load other name => simp [Store.step, load, flightsOf_lookUp_of_fresh stored fresh]
  | conclude name outcome =>
      cases landed : store.conclude? name outcome with
      | none => simp [Store.step, landed]
      | some result =>
          simpa [Store.step, landed] using (flightsOf_sublist_of_conclude? landed).subset

/-! ## What a run does to a stored schema -/

variable {steps : List (Step κ σ τ φ ε)}

/-- A schema that can be got throughout is never invalidated, no flight for its key fails, and
the latest one is always fresh. -/
theorem lasting_of_available (stored : store.slots key = some (.stored schema time))
    (available : ∀ n, ((store.run (steps.take n)).2.get? key).isSome) :
    .invalidate key ∉ steps ∧
      (∀ flight outcome, flight.key = key → .ended flight outcome ∈ (store.run steps).1 →
        outcome.fails = false) ∧
      ∀ n, (store.run (steps.take n)).2.isFresh (storedAt key time store (steps.take n)) := by
  have fresh : store.isFresh time = true :=
    (isSome_get?_of_stored stored).symm.trans (available 0)
  induction steps generalizing store schema time with
  | nil => simp [storedAt, fresh]
  | cons first rest inductionHypothesis =>
      have availableNext : ∀ n, (((store.step first).2.run (rest.take n)).2.get? key).isSome :=
        fun n => available (n + 1)
      have occupied : (store.step first).2.slots key ≠ none := by
        intro empty
        have got := availableNext 0
        simp [get?_of_empty empty] at got
      have kept : first ≠ .invalidate key := by
        rintro rfl
        exact occupied (slots_step_invalidate stored)
      have lands : ∀ flight outcome, flight.key = key →
          (store.step first).1 = .ended flight outcome → outcome.fails = false := by
        intro flight outcome same ended
        apply Bool.eq_false_iff.mpr
        exact fun fails => occupied (slots_step_of_fails ended same fails)
      obtain ⟨newest, storedNext⟩ := exists_slots_step_of_fresh stored fresh kept
        (fun flight member outcome => lands flight outcome (key_of_mem_flightsOf member))
      have freshNext := (isSome_get?_of_stored storedNext).symm.trans (availableNext 0)
      obtain ⟨keptNext, landsNext, freshLater⟩ :=
        inductionHypothesis storedNext availableNext freshNext
      refine ⟨?_, ?_, ?_⟩
      · simpa [kept.symm] using keptNext
      · intro flight outcome same member
        rcases List.mem_cons.mp member with now | later
        · exact lands flight outcome same now.symm
        · exact landsNext flight outcome same later
      · intro n
        cases n with
        | zero => exact fresh
        | succ n => exact freshLater n

/-- A schema can be got throughout if it is never invalidated, none of the flights that are under
way for its key at the start fails, and the latest one is always fresh. -/
theorem available_of_lasting (stored : store.slots key = some (.stored schema time))
    (kept : .invalidate key ∉ steps)
    (lands : ∀ flight ∈ store.flightsOf key, ∀ outcome,
      .ended flight outcome ∈ (store.run steps).1 → outcome.fails = false)
    (fresh : ∀ n, (store.run (steps.take n)).2.isFresh (storedAt key time store (steps.take n)))
    (n : Nat) : ((store.run (steps.take n)).2.get? key).isSome := by
  induction n generalizing store schema time steps with
  | zero => exact (isSome_get?_of_stored stored).trans (fresh 0)
  | succ n inductionHypothesis =>
      cases steps with
      | nil => exact (isSome_get?_of_stored stored).trans (fresh 0)
      | cons first rest =>
          obtain ⟨keptFirst, keptRest⟩ := not_or.mp (mt List.mem_cons.mpr kept)
          obtain ⟨newest, storedNext⟩ :=
            exists_slots_step_of_fresh stored (fresh 0) (Ne.symm keptFirst)
              (fun flight member outcome ended =>
                lands flight member outcome (List.mem_cons.mpr (Or.inl ended.symm)))
          -- The flights under way later on are some of those under way at the start.
          apply inductionHypothesis storedNext keptRest
          · intro flight member outcome ended
            have early := flightsOf_step_subset_of_fresh stored (fresh 0) first member
            exact lands flight early outcome (List.mem_cons_of_mem _ ended)
          · exact fun later => fresh (later + 1)

/-- From when a schema is stored under a key, some schema of the key can be got all the time if
and only if the key is not invalidated, no flight fails that was under way for it then, and the
schema that was stored last is always fresh. -/
theorem available_iff (stored : store.slots key = some (.stored schema time))
    (steps : List (Step κ σ τ φ ε)) :
    (∀ n, ((store.run (steps.take n)).2.get? key).isSome) ↔
      .invalidate key ∉ steps ∧
        (∀ flight ∈ store.flightsOf key, ∀ outcome,
          .ended flight outcome ∈ (store.run steps).1 → outcome.fails = false) ∧
        ∀ n, (store.run (steps.take n)).2.isFresh (storedAt key time store (steps.take n)) := by
  constructor
  · intro available
    obtain ⟨kept, lands, fresh⟩ := lasting_of_available stored available
    refine ⟨kept, ?_, fresh⟩
    intro flight member outcome ended
    exact lands flight outcome (key_of_mem_flightsOf member) ended
  · rintro ⟨kept, lands, fresh⟩ n
    exact available_of_lasting stored kept lands fresh n

/-- A flight that is given up takes nothing away from a schema that was put there before it. -/
theorem available_cancelled :
    ((run (⟨10, 3, fun _ => some (.stored 7 3), [⟨1, (), false⟩]⟩ : Store Unit Nat Nat Nat)
      [.conclude 1 .cancelled, (.setClock 9 : Step Unit Nat Nat Nat Unit)]).2.get? ()).isSome := by
  let steps : List (Step Unit Nat Nat Nat Unit) := [.conclude 1 .cancelled, .setClock 9]
  apply (available_iff rfl steps).mpr ⟨?_, ?_, ?_⟩ 2
  · simp [steps]
  · intro flight _ outcome ended
    have cancelled : outcome = .cancelled := by
      simp [steps, Store.step, conclude?] at ended
      exact ended.2
    rw [cancelled]
    rfl
  · intro n
    rcases n with _ | _ | later
    · rfl
    · rfl
    · simp [steps, Store.step, conclude?, settle, isFresh, storedAt, storesUnder]

/-- A flight that fails takes away the schema that was put in the place of its mark, fresh as it
is. -/
theorem get?_eq_none_failed :
    let held : Store Unit Nat Nat Nat :=
      (run ({ lifetime := 10, now := 0 } : Store Unit Nat Nat Nat)
        [.request () 1, (.put () 7 : Step Unit Nat Nat Nat Unit)]).2
    let next := (held.step (.conclude 1 (.failed ()) : Step Unit Nat Nat Nat Unit)).2
    held.get? () = some 7 ∧ next.now = held.now ∧ next.get? () = none := by
  decide

end Store

end Typeahead
