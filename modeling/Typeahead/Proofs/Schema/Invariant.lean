import Typeahead.Proofs.Schema.Knowledge

/-!
# Invariants of surveys

A survey changes its table in three ways only: a path that is first seen gets empty flags, null is
marked where a field may be absent, and a value is noted at its path. What these keep holds after
any documents, whatever names they have.
-/

namespace Typeahead.Schema

open Document (Value Name IsContainer Value.induction)

/-- A survey that sees values of a sort keeps a property of its table. -/
structure Invariant (property : Table → Prop) (sort : Value → Prop) : Prop where
  touch : ∀ {table : Table} (path : Text), property table → property (table.touch path)
  mark : ∀ {table : Table} (path : Text), property table → property (table.mark path .null)
  note : ∀ {table : Table} (path : Text) {value : Value}, sort value → property table →
    property (table.modify path (·.note value))

namespace Invariant

variable {property : Table → Prop} {sort : Value → Prop}

theorem markNull (invariant : Invariant property sort) {table : Table} (holds : property table)
    (path : Text) (names : List Text) : property (table.markNull path names) := by
  induction names generalizing table with
  | nil => exact holds
  | cons name rest inductionHypothesis =>
      exact inductionHypothesis (invariant.mark (Table.below path name) holds)

/-- The survey of a value that shows values of a sort only keeps a property of the table. -/
def Covers (property : Table → Prop) (sort : Value → Prop) (value : Value) : Prop :=
  ∀ {route : Route} {path : Text} {shape : Shape} {table : Table},
    (∀ sighting ∈ sightings route value, sort sighting.value) → property table →
      property (visit path shape table value).2

theorem visitElements {elements : List Value}
    (covers : ∀ element ∈ elements, Covers property sort element) {route : Route}
    {path : Text} {shape : Shape} {table : Table}
    (shown : ∀ sighting ∈ sightingsOfElements route elements, sort sighting.value)
    (holds : property table) : property (Schema.visitElements path shape table elements).2 := by
  induction elements generalizing shape table with
  | nil => exact holds
  | cons element rest inductionHypothesis =>
      obtain ⟨first, others⟩ := List.forall_mem_append.mp shown
      rw [Schema.visitElements]
      exact inductionHypothesis (fun other member => covers other (List.mem_cons_of_mem _ member))
        others (covers element List.mem_cons_self first holds)

theorem visitFields (invariant : Invariant property sort) {fields : List (Name × Value)}
    (covers : ∀ field ∈ fields, Covers property sort field.2) {route : Route} {path : Text}
    {seen : Bool} {known : Entries Shape} {table : Table}
    (shown : ∀ sighting ∈ sightingsOfFields route fields, sort sighting.value)
    (holds : property table) : property (Schema.visitFields path seen known table fields).2 := by
  induction fields generalizing known table with
  | nil => exact holds
  | cons field rest inductionHypothesis =>
      obtain ⟨name, value⟩ := field
      obtain ⟨first, others⟩ := List.forall_mem_append.mp shown
      rw [Schema.visitFields]
      apply inductionHypothesis (fun other member => covers other (List.mem_cons_of_mem _ member))
        others
      apply covers (name, value) List.mem_cons_self first
      split
      · exact invariant.mark _ (invariant.touch _ holds)
      · exact invariant.touch _ holds

theorem visit (invariant : Invariant property sort) (value : Value) :
    Covers property sort value := by
  induction value using Value.induction with
  | leaf value leaf =>
      intro route path shape table shown holds
      rw [visit_of_leaf path shape table leaf]
      exact invariant.note path (shown _ (self_mem_sightings route value)) holds
  | array elements below =>
      intro route path shape table shown holds
      obtain ⟨self, inside⟩ := List.forall_mem_cons.mp shown
      rw [Schema.visit]
      exact visitElements below inside (invariant.markNull (invariant.note path self holds) _ _)
  | object fields below =>
      intro route path shape table shown holds
      obtain ⟨self, inside⟩ := List.forall_mem_cons.mp shown
      rw [Schema.visit]
      exact invariant.visitFields below inside
        (invariant.markNull (invariant.note path self holds) _ _)

/-- The survey of documents keeps a property of its table if they show values of a sort only. -/
theorem addAll (invariant : Invariant property sort) {survey : Survey}
    (holds : property survey.table) {documents : List Document}
    (shown : ∀ sighting ∈ sighted documents, sort sighting.value) :
    property (survey.addAll documents).table := by
  induction documents generalizing survey with
  | nil => exact holds
  | cons document rest inductionHypothesis =>
      rw [sighted, List.flatMap_cons, List.forall_mem_append] at shown
      exact @inductionHypothesis (survey.add document)
        (invariant.visit (.object document) shown.1 holds) shown.2

end Invariant

end Typeahead.Schema
