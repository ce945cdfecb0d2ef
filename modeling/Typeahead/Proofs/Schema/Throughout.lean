import Typeahead.Proofs.Decimal.Range
import Typeahead.Proofs.Schema.Enumeration
import Typeahead.Proofs.Schema.Invariant

/-!
# What holds of all flags of a survey

A property of flags that empty flags have, and that lasts where null is marked and where values are
noted, holds of the flags of every path. So do the numbers that are listed anywhere have doubles if
all numbers in the documents have.
-/

namespace Typeahead.Schema

open Document (Value)

/-- A property holds of empty flags, and it lasts where null is marked and where values of some
sort are noted. -/
structure Lasting (property : SurveyFlags → Prop) (sort : Value → Prop) : Prop where
  empty : property {}
  mark : ∀ {flags}, property flags → property (flags.mark .null)
  note : ∀ {flags value}, sort value → property flags → property (flags.note value)

namespace Table

/-- A property holds of all flags of the table. -/
def Throughout (property : SurveyFlags → Prop) (table : Table) : Prop :=
  ∀ entry ∈ table, property entry.2

variable {property : SurveyFlags → Prop} {sort : Value → Prop} {table : Table}

theorem Throughout.modify (throughout : table.Throughout property) (path : Text)
    {change : SurveyFlags → SurveyFlags}
    (keeps : ∀ {flags}, property flags → property (change flags)) :
    Throughout property (Entries.modify table path change) := by
  intro entry member
  obtain ⟨before, among, rfl⟩ := List.mem_map.mp member
  split
  · exact keeps (throughout before among)
  · exact throughout before among

theorem Throughout.touch (throughout : table.Throughout property) (empty : property {})
    (path : Text) : (table.touch path).Throughout property := by
  induction table with
  | nil =>
      intro entry member
      obtain rfl := List.mem_singleton.mp member
      exact empty
  | cons first rest inductionHypothesis =>
      obtain ⟨head, others⟩ := List.forall_mem_cons.mp throughout
      rw [Table.touch, Entries.upsert]
      split
      · exact List.forall_mem_cons.mpr ⟨head, others⟩
      · exact List.forall_mem_cons.mpr ⟨head, inductionHypothesis others⟩

theorem invariant_throughout (lasting : Lasting property sort) :
    Invariant (Throughout property) sort where
  touch path throughout := throughout.touch lasting.empty path
  mark path throughout := throughout.modify path lasting.mark
  note path _ allowed throughout := throughout.modify path (lasting.note allowed)

end Table

/-- What holds of empty flags and lasts holds of all flags of the survey of documents. -/
theorem Lasting.throughout {property : SurveyFlags → Prop} {sort : Value → Prop}
    (lasting : Lasting property sort) {documents : List Document}
    (shown : ∀ sighting ∈ sighted documents, sort sighting.value) :
    (({} : Survey).addAll documents).table.Throughout property := by
  refine (Table.invariant_throughout lasting).addAll ?_ shown
  intro entry member
  obtain rfl := List.mem_singleton.mp member
  exact lasting.empty

/-! ## Numbers in range -/

theorem Listing.mem_of_mem_add {α : Type} {limit : Nat} {same : α → α → Bool} {value other : α}
    {listing : Listing α} {values : List α}
    (listed : (listing.add limit same value).values? = some values) (member : other ∈ values) :
    other = value ∨ ∃ before, listing.values? = some before ∧ other ∈ before := by
  cases listing with
  | absent =>
      obtain rfl := Option.some.inj listed
      exact .inl (List.mem_singleton.mp member)
  | unlisted => contradiction
  | listed before =>
      simp only [Listing.add] at listed
      split at listed
      · obtain rfl := Option.some.inj listed
        exact .inr ⟨_, rfl, member⟩
      · split at listed
        · contradiction
        · obtain rfl := Option.some.inj listed
          rcases List.mem_append.mp member with earlier | new
          · exact .inr ⟨_, rfl, earlier⟩
          · exact .inl (List.mem_singleton.mp new)

theorem lasting_inRange :
    Lasting SurveyFlags.InRange fun value =>
      ∀ number, value = .number number → number.toDouble?.isSome where
  empty := nofun
  mark inRange := inRange
  note {flags value} allowed inRange := by
    cases value with
    | number number =>
        intro values listed listedNumber member
        rcases Listing.mem_of_mem_add listed member with rfl | ⟨before, known, earlier⟩
        · exact allowed _ rfl
        · exact inRange before known listedNumber earlier
    | _ => exact inRange

/-- Documents have a schema if all numbers that they show have doubles. -/
theorem Survey.isSome_schema?_of_inRange {documents : List Document}
    (inRange : ∀ sighting ∈ sighted documents, ∀ number, sighting.value = .number number →
      number.toDouble?.isSome) :
    (({} : Survey).addAll documents).schema?.isSome := by
  have throughout := lasting_inRange.throughout inRange
  rw [Survey.schema?_eq, Option.isSome_map, Entries.isSome_mapValues?_iff]
  intro entry member
  exact SurveyFlags.isSome_finish?_iff.mpr (throughout entry (List.mem_filter.mp member).1)

/-- Documents have no schema only if they show an integer of more than sixty-four bits. -/
theorem Survey.exists_long_of_schema?_eq_none {documents : List Document}
    (unlisted : (({} : Survey).addAll documents).schema? = none) :
    ∃ route value, ⟨route, .number (.integer value)⟩ ∈ sighted documents ∧
      2 ^ 64 ≤ value.natAbs := by
  by_contra short
  have built : (({} : Survey).addAll documents).schema?.isSome := by
    apply Survey.isSome_schema?_of_inRange
    rintro ⟨route, _⟩ member number rfl
    rw [Option.isSome_iff_ne_none]
    intro far
    obtain ⟨value, rfl, long⟩ := Document.Number.exists_long_of_toDouble?_eq_none far
    exact short ⟨route, value, member, long⟩
  rw [unlisted] at built
  contradiction

end Typeahead.Schema
