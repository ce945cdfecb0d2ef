import Typeahead.Proofs.Store.Steps

/-!
# How many flights a key has

A question starts a flight for a key of which nothing is known and marks the key; as long as the
mark stays, questions about the key start nothing. The mark and the flights are kept apart, though,
and do not always go together: a schema that is put in the place of the mark leaves the flight
under way, and a flight may end where there is no mark of its own to take away. This module
counts both, and with them it counts the flights of every state that a run can reach.
-/

namespace Typeahead.Store

universe u v w x y

variable {κ : Type u} {σ : Type v} {τ : Type w} {φ : Type x} {ε : Type y}
variable [DecidableEq κ] [DecidableEq φ] [Sub τ] [LT τ] [DecidableLT τ]

/-! ## What is counted -/

/-- How many steps of a run pass a test in the state that they are taken in. -/
def tally (test : Store κ σ τ φ → Step κ σ τ φ ε → Bool) :
    Store κ σ τ φ → List (Step κ σ τ φ ε) → Nat
  | _, [] => 0
  | store, first :: rest => (test store first).toNat + tally test (store.step first).2 rest

/-- A schema is put in the place of the key's mark. -/
def replacesMark (key : κ) (store : Store κ σ τ φ) : Step κ σ τ φ ε → Bool
  | .put other _ => other = key && store.isLoading key
  | _ => false

/-- A flight for the key ends and takes no mark away: there is none, or it is left behind. -/
def endsBesideMark (key : κ) (store : Store κ σ τ φ) (step : Step κ σ τ φ ε) : Bool :=
  match store.step step with
  | (.ended flight _, next) => flight.key = key && next.isLoading key == store.isLoading key
  | _ => false

/-! ## The marks and flights of one step -/

variable {store next : Store κ σ τ φ} {key : κ}

section Marks

omit [DecidableEq φ] [Sub τ] [LT τ] [DecidableLT τ]

theorem isLoading_put_self {schema : σ} : (store.put key schema).isLoading key = false := by
  simp [isLoading]

theorem isLoading_put_of_ne {other : κ} {schema : σ} (apart : other ≠ key) :
    (store.put other schema).isLoading key = store.isLoading key :=
  isLoading_congr (by simp [Ne.symm apart])

theorem isLoading_launch_self {flight : Flight κ φ} (same : flight.key = key) :
    (store.launch flight).isLoading key = true :=
  isLoading_eq_true_iff.mpr (by simp [same])

theorem isLoading_launch_of_ne {flight : Flight κ φ} (apart : flight.key ≠ key) :
    (store.launch flight).isLoading key = store.isLoading key :=
  isLoading_congr (by simp [Ne.symm apart])

/-- What a flight brings is never a mark. -/
theorem isLoading_of_isLoading_settle {other : κ} {outcome : Outcome σ ε}
    (loading : (store.settle other outcome).isLoading key = true) :
    store.isLoading key = true := by
  rw [isLoading_eq_true_iff] at loading ⊢
  by_cases same : key = other
  · subst same
    cases outcome <;> simp_all [settle]
  · rwa [slots_settle_of_ne same] at loading

end Marks

section Questions

omit [DecidableEq φ]

theorem lookUp_of_known?_eq_none {flight : Flight κ φ} (unknown : store.known? flight.key = none) :
    store.lookUp flight = (none, store.launch flight) := by
  unfold lookUp
  rw [unknown]

theorem lookUp_of_known?_eq_some {flight : Flight κ φ} {schema? : Option σ}
    (known : store.known? flight.key = some schema?) :
    store.lookUp flight = (some schema?, store) := by
  unfold lookUp
  rw [known]

/-- A question leaves a key as it is, or it marks the key and starts a flight for it. -/
theorem lookUp_cases (store : Store κ σ τ φ) (key : κ) (flight : Flight κ φ) :
    let asked := (store.lookUp flight).2
    (asked.isLoading key = store.isLoading key ∧ asked.flightsOf key = store.flightsOf key) ∨
      store.isLoading key = false ∧ asked.isLoading key = true ∧
        asked.flightsOf key = store.flightsOf key ++ [flight] := by
  intro asked
  cases known : store.known? flight.key with
  | some schema? =>
      have same : asked = store := congrArg Prod.snd (lookUp_of_known?_eq_some known)
      rw [same]
      exact .inl ⟨rfl, rfl⟩
  | none =>
      have launched : asked = store.launch flight :=
        congrArg Prod.snd (lookUp_of_known?_eq_none known)
      rw [launched, flightsOf_launch]
      by_cases same : flight.key = key
      · rw [same] at known
        rw [if_pos same]
        exact .inr ⟨isLoading_of_known?_eq_none known, isLoading_launch_self same, rfl⟩
      · rw [if_neg same]
        exact .inl ⟨isLoading_launch_of_ne same, rfl⟩

/-- A question starts a flight together with its mark, or changes nothing. -/
theorem length_flightsOf_lookUp (store : Store κ σ τ φ) (key : κ) (flight : Flight κ φ) :
    ((store.lookUp flight).2.flightsOf key).length + (store.isLoading key).toNat =
      (store.flightsOf key).length + ((store.lookUp flight).2.isLoading key).toNat := by
  rcases lookUp_cases store key flight with ⟨marks, flights⟩ | ⟨unmarked, marked, flights⟩
  · rw [marks, flights]
  · rw [unmarked, marked, flights]
    simp

/-- A question starts a flight exactly when nothing is known of its key. -/
theorem ofLookUp_lookUp_eq_started_iff {flight : Flight κ φ} :
    (Report.ofLookUp (store.lookUp flight).1 : Report κ σ φ ε) = .started ↔
      store.known? flight.key = none := by
  cases known : store.known? flight.key with
  | some schema? => simp [lookUp_of_known?_eq_some known, Report.ofLookUp]
  | none => simp [lookUp_of_known?_eq_none known, Report.ofLookUp]

end Questions

/-- A flight that ends takes its mark away, unless it is one of those that end beside it. -/
theorem length_flightsOf_conclude? (key : κ) {name : φ} {outcome : Outcome σ ε}
    {flight : Flight κ φ} (ended : store.conclude? name outcome = some (flight, next)) :
    (next.flightsOf key).length + (store.isLoading key).toNat +
        (endsBesideMark key store (.conclude name outcome)).toNat =
      (store.flightsOf key).length + (next.isLoading key).toNat := by
  have settled : next.isLoading key = (store.settle flight.key outcome).isLoading key :=
    isLoading_congr (congrFun (slots_of_conclude? ended) key)
  by_cases same : flight.key = key
  · have taken := length_flightsOf_of_conclude? ended same
    have noMark : next.isLoading key = true → store.isLoading key = true := by
      rw [settled]
      exact isLoading_of_isLoading_settle
    simp only [endsBesideMark, step, ended, same, decide_true, Bool.true_and]
    -- The mark was taken away, or it is as it was; it was not set.
    cases before : store.isLoading key <;> cases after : next.isLoading key <;>
      simp_all
  · have kept : (store.settle flight.key outcome).isLoading key = store.isLoading key :=
      isLoading_congr (slots_settle_of_ne (Ne.symm same) outcome)
    rw [flightsOf_of_conclude?_of_ne ended same, settled, kept]
    simp [endsBesideMark, step, ended, same]

/-- One step keeps the balance of flights and marks, up to the marks that are replaced and the
flights that end beside one. -/
theorem length_flightsOf_step (store : Store κ σ τ φ) (key : κ) (step : Step κ σ τ φ ε) :
    ((store.step step).2.flightsOf key).length + (store.isLoading key).toNat +
        (endsBesideMark key store step).toNat =
      (store.flightsOf key).length + ((store.step step).2.isLoading key).toNat +
        (replacesMark key store step).toNat := by
  cases step with
  | get other => simp [step, endsBesideMark, replacesMark]
  | put other schema =>
      by_cases same : other = key
      · subst same
        simp [step, endsBesideMark, replacesMark, isLoading_put_self]
      · simp [step, endsBesideMark, replacesMark, same, isLoading_put_of_ne same]
  | invalidate other => simp [step, endsBesideMark, replacesMark, isLoading_invalidate]
  | request other name =>
      have asked := length_flightsOf_lookUp store key ⟨name, other, false⟩
      cases known : (store.lookUp ⟨name, other, false⟩).1 <;>
        simpa [step, endsBesideMark, replacesMark, Report.ofLookUp, known] using asked
  | load other name =>
      have asked := length_flightsOf_lookUp store key ⟨name, other, true⟩
      cases known : (store.lookUp ⟨name, other, true⟩).1 <;>
        simpa [step, load, endsBesideMark, replacesMark, Report.ofLookUp, known] using asked
  | conclude name outcome =>
      cases ended : store.conclude? name outcome with
      | none => simp [step, endsBesideMark, replacesMark, ended]
      | some landed =>
          have balance := length_flightsOf_conclude? key ended
          simpa [step, ended, replacesMark] using balance
  | setClock time => simp [step, endsBesideMark, replacesMark, flightsOf, isLoading]

/-! ## The flights of a run -/

/-- The balance of flights and marks over a run. -/
theorem length_flightsOf_run (store : Store κ σ τ φ) (key : κ) (steps : List (Step κ σ τ φ ε)) :
    ((store.run steps).2.flightsOf key).length + (store.isLoading key).toNat +
        tally (endsBesideMark key) store steps =
      (store.flightsOf key).length + ((store.run steps).2.isLoading key).toNat +
        tally (replacesMark key) store steps := by
  induction steps generalizing store with
  | nil => rfl
  | cons first rest inductionHypothesis =>
      have balance := length_flightsOf_step store key first
      have later := inductionHypothesis (store.step first).2
      simp only [run_cons, tally]
      omega

/-- Nothing is known of the key of a question that starts a flight, and so it has no mark. -/
theorem isLoading_of_step_eq_started {name : φ}
    (started : (store.step (.request key name : Step κ σ τ φ ε)).1 = .started ∨
      (store.step (.load key name : Step κ σ τ φ ε)).1 = .started) :
    store.isLoading key = false := by
  apply isLoading_of_known?_eq_none
  rcases started with requested | loaded
  · exact ofLookUp_lookUp_eq_started_iff.mp requested
  · exact ofLookUp_lookUp_eq_started_iff.mp loaded

/-- The flights under way for a key, in every state that a store without slots can reach: one for
the mark of the key, one for each of its marks that a schema was put in the place of, less those
that have ended beside a mark. So a key has a single flight, and a question starts one only where
there is none, as long as no schema is put in the place of its mark. -/
theorem length_flightsOf_reached (lifetime now : τ) (steps : List (Step κ σ τ φ ε)) (key : κ) :
    let empty : Store κ σ τ φ := { lifetime, now }
    let reached := (empty.run steps).2
    let replaced := tally (replacesMark key) empty steps
    (reached.flightsOf key).length + tally (endsBesideMark key) empty steps =
        (reached.isLoading key).toNat + replaced ∧
      (replaced = 0 →
        (reached.flightsOf key).length ≤ 1 ∧
          ∀ name,
            (reached.step (.request key name : Step κ σ τ φ ε)).1 = .started ∨
                (reached.step (.load key name : Step κ σ τ φ ε)).1 = .started →
              reached.flightsOf key = []) := by
  intro empty reached replaced
  have balance : (reached.flightsOf key).length + tally (endsBesideMark key) empty steps =
      (reached.isLoading key).toNat + replaced := by
    have counted := length_flightsOf_run empty key steps
    have noFlight : (empty.flightsOf key).length = 0 := rfl
    have noMark : empty.isLoading key = false := rfl
    rw [noFlight, noMark] at counted
    simpa using counted
  constructor
  · exact balance
  · intro kept
    constructor
    · have single := Bool.toNat_le (reached.isLoading key)
      omega
    · intro name started
      rw [isLoading_of_step_eq_started started, kept] at balance
      apply List.length_eq_zero_iff.mp
      exact Nat.eq_zero_of_add_eq_zero_right balance

/-- A flight that has ended leaves none behind for the question that starts the next. -/
theorem flightsOf_reached_expired :
    ((run ({ lifetime := 10, now := 0 } : Store Unit Nat Nat Nat)
      [.request () 1, .conclude 1 (.fetched 7),
        (.setClock 20 : Step Unit Nat Nat Nat Unit)]).2.flightsOf ()) = [] :=
  ((length_flightsOf_reached 10 0 _ ()).2 rfl).2 2 (Or.inl rfl)

/-- Once a schema is put in the place of the mark and dropped again, the next question starts a
second flight beside the first. -/
theorem length_flightsOf_replaced :
    ((run ({ lifetime := 10, now := 0 } : Store Unit Nat Nat Nat)
      [.request () 1, .put () 7, .invalidate (),
        (.request () 2 : Step Unit Nat Nat Nat Unit)]).2.flightsOf ()).length = 2 := by
  decide

end Typeahead.Store
