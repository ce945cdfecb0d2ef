import Typeahead.Proofs.Schema.Finish
import Typeahead.Proofs.Schema.Listing

/-!
# The order of the sample does not matter

Two surveys of the same documents in different orders end in schemas that agree: on the paths, on the
kinds of values at each path, and on the numbers and texts that they list there. If one of them ends
in no schema at all, because a listed number has no double, then so does the other.
-/

namespace Typeahead.Schema

open Document (Number Value Words Name)

/-! ## Agreement -/

/-- Flags that say the same. Listed numbers are compared by their exact values. -/
structure Flags.Agrees (first second : Flags Float Text) : Prop where
  kinds : ∀ kind, first.has kind = second.has kind
  numbers : Listing.Alike (fun value => (Number.double value).exact) first.numbers second.numbers
  texts : Listing.Alike id first.texts second.texts

/-- Schemas that have the same paths and say the same of each. -/
structure Agree (first second : Schema) : Prop where
  sampled : first.sampled = second.sampled
  paths : ∀ path, path ∈ first.paths ↔ path ∈ second.paths
  flags : ∀ path, Option.Rel Flags.Agrees (first.flags? path) (second.flags? path)

theorem mem_paths_iff {schema : Schema} {path : Text} :
    path ∈ schema.paths ↔ (schema.flags? path).isSome := by
  rw [Schema.flags?, Option.isSome_map, Schema.find?, Entries.isSome_find?_iff]
  rfl

/-! ## What was seen -/

section

variable {seen others : List Sighting} {here : Route} {path : Text}

theorem valuesAt_of_perm (perm : seen.Perm others) (path : Text) :
    (valuesAt seen path).Perm (valuesAt others path) :=
  (perm.filter _).map _

theorem shows_of_perm (perm : seen.Perm others) {kind : Kind} :
    Shows seen here path kind ↔ Shows others here path kind := by
  have half {seen others : List Sighting} (within : seen ⊆ others) :
      Shows seen here path kind → Shows others here path kind := by
    rintro (⟨member, known⟩ | ⟨member, misses, opened⟩)
    · exact .value (within member) known
    · apply Shows.missing (within member) misses
      rcases opened with same | ⟨value, known⟩
      · exact .inl same
      · exact .inr ⟨value, within known⟩
  exact ⟨half perm.subset, half perm.symm.subset⟩

/-- Flags that record the same sightings in different orders are finished to flags that agree. -/
theorem finish?_of_perm {first second : SurveyFlags} (perm : seen.Perm others)
    (firstRecords : first.Records seen here path)
    (secondRecords : second.Records others here path) :
    Option.Rel Flags.Agrees (Survey.finish? first) (Survey.finish? second) := by
  have values := valuesAt_of_perm perm path
  have numbers : Listing.Alike Number.exact first.numbers second.numbers := by
    rw [firstRecords.numbers, secondRecords.numbers]
    exact numbers_of_perm values
  have texts : Listing.Alike id first.texts second.texts := by
    rw [firstRecords.texts, secondRecords.texts]
    exact texts_of_perm values
  have turnedNumbers := numbers.convert? Number.toDouble?_congr
  have turnedTexts : Option.Rel (Listing.Alike id)
      (Survey.convert? (fun words : Words => some words.text) first.texts)
      (Survey.convert? (fun words : Words => some words.text) second.texts) := by
    apply texts.convert?
    intro one other same
    exact .some (congrArg Words.text same)
  have kinds (kind : Kind) : first.has kind = second.has kind := by
    rw [Bool.eq_iff_iff, firstRecords.shows_iff, secondRecords.shows_iff, shows_of_perm perm]
  have firstKinds := @Survey.has_of_finish? first
  have secondKinds := @Survey.has_of_finish? second
  simp only [Survey.finish?] at firstKinds secondKinds ⊢
  generalize Survey.convert? Number.toDouble? first.numbers = ones,
    Survey.convert? Number.toDouble? second.numbers = others at *
  generalize Survey.convert? (fun words : Words => some words.text) first.texts = firstTexts,
    Survey.convert? (fun words : Words => some words.text) second.texts = secondTexts at *
  cases turnedNumbers with
  | none => exact .none
  | some numbersAlike =>
      cases turnedTexts with
      | none => exact .none
      | some textsAlike =>
          refine Option.Rel.some ⟨fun kind => ?_, numbersAlike, textsAlike⟩
          exact (firstKinds rfl kind).trans ((kinds kind).trans (secondKinds rfl kind).symm)

end

/-! ## Surveys -/

namespace Survey

variable {documents others : List Document}

theorem sighted_of_perm (perm : documents.Perm others) : (sighted documents).Perm (sighted others) :=
  perm.flatMap_right _

/-- Tables that record the same sightings in different orders have the same paths. -/
theorem finishes_of_perm {first second : Table} {seen more : List Sighting} {here : Route}
    (perm : seen.Perm more) (firstRecords : first.Records seen here)
    (secondRecords : second.Records more here) (path : Text) :
    Option.Rel (fun one other => Option.Rel Flags.Agrees (finish? one) (finish? other))
      (first.find? path) (second.find? path) := by
  have known : (first.find? path).isSome ↔ (second.find? path).isSome := by
    rw [firstRecords.known, secondRecords.known]
    apply or_congr_right
    constructor
    · rintro ⟨sighting, member, same⟩
      exact ⟨sighting, perm.subset member, same⟩
    · rintro ⟨sighting, member, same⟩
      exact ⟨sighting, perm.symm.subset member, same⟩
  cases foundFirst : first.find? path with
  | none =>
      rw [foundFirst] at known
      cases foundSecond : second.find? path with
      | none => exact .none
      | some flags => simp [foundSecond] at known
  | some flags =>
      rw [foundFirst] at known
      cases foundSecond : second.find? path with
      | none => simp [foundSecond] at known
      | some others =>
          exact .some (finish?_of_perm perm (firstRecords.flags foundFirst)
            (secondRecords.flags foundSecond))

theorem isSome_schema?_of_perm {first second : Survey} {seen more : List Sighting} {here : Route}
    (perm : seen.Perm more) (firstRecords : first.table.Records seen here)
    (secondRecords : second.table.Records more here) (built : first.schema?.isSome) :
    second.schema?.isSome := by
  rw [isSome_schema?_iff firstRecords.distinct] at built
  rw [isSome_schema?_iff secondRecords.distinct]
  intro path flags present found
  have finishes := finishes_of_perm perm firstRecords secondRecords path
  rw [found] at finishes
  cases foundFirst : first.table.find? path with
  | none =>
      rw [foundFirst] at finishes
      cases finishes
  | some others =>
      rw [foundFirst] at finishes
      have done := built path others present foundFirst
      cases finishes with
      | some agree =>
          generalize finish? others = one, finish? flags = other at agree done ⊢
          cases agree with
          | none => contradiction
          | some _ => rfl

/-- The schemas of surveys that record the same sightings in different orders agree. -/
theorem agree_of_perm {first second : Survey} {seen more : List Sighting} {here : Route}
    {schema other : Schema} (perm : seen.Perm more) (firstRecords : first.table.Records seen here)
    (secondRecords : second.table.Records more here) (counts : first.count = second.count)
    (built : first.schema? = some schema) (otherBuilt : second.schema? = some other) :
    Agree schema other := by
  have flags (path : Text) : Option.Rel Flags.Agrees (schema.flags? path) (other.flags? path) := by
    rw [flags?_of_schema? firstRecords.distinct built,
      flags?_of_schema? secondRecords.distinct otherBuilt]
    by_cases root : path = []
    · rw [if_pos root, if_pos root]
      exact .none
    · rw [if_neg root, if_neg root]
      have finishes := finishes_of_perm perm firstRecords secondRecords path
      generalize first.table.find? path = one, second.table.find? path = other at finishes
      cases finishes with
      | none => exact .none
      | some agree => exact agree
  constructor
  · rw [sampled_of_schema? built, sampled_of_schema? otherBuilt, counts]
  · intro path
    rw [mem_paths_iff, mem_paths_iff]
    have same := flags path
    generalize schema.flags? path = one, other.flags? path = other at same
    cases same with
    | none => exact Iff.rfl
    | some _ => exact Iff.rfl
  · exact flags

/-- Documents whose names are all texts give schemas that agree, in whatever order they come. -/
theorem schema?_of_perm (textual : Textual (sighted documents)) (perm : documents.Perm others) :
    Option.Rel Agree (({} : Survey).addAll documents).schema?
      (({} : Survey).addAll others).schema? := by
  have order : (sighted documents).Perm (sighted others) := sighted_of_perm perm
  have records := (follows_addAll textual follows_empty).records
  have otherRecords := (follows_addAll (textual.mono order.symm.subset) follows_empty).records
  rw [List.nil_append] at records otherRecords
  have counts : (({} : Survey).addAll documents).count = (({} : Survey).addAll others).count := by
    rw [count_addAll, count_addAll, perm.length_eq]
  cases built : (({} : Survey).addAll documents).schema? with
  | none =>
      cases otherBuilt : (({} : Survey).addAll others).schema? with
      | none => exact .none
      | some schema =>
          have back := isSome_schema?_of_perm order.symm otherRecords records
            (Option.isSome_of_eq_some otherBuilt)
          rw [built] at back
          contradiction
  | some schema =>
      have also := isSome_schema?_of_perm order records otherRecords
        (Option.isSome_of_eq_some built)
      obtain ⟨other, otherBuilt⟩ := Option.isSome_iff_exists.mp also
      rw [otherBuilt]
      exact .some (agree_of_perm order records otherRecords counts built otherBuilt)

/-- An integer, the double of the same value, and a document without the field. -/
def mixed : List Document :=
  [[(.text ['n'], .number (.integer 1))], [(.text ['n'], .number (.double 1))], []]

theorem textual_mixed : Textual (sighted mixed) := by
  rw [textual_iff]
  simp [sighted, mixed, sightings, sightingsOfFields]

/-- The integer is listed in one order and the double in the other, and both orders give a schema. -/
theorem schema?_of_perm_mixed :
    ∃ schema other, (({} : Survey).addAll mixed).schema? = some schema ∧
      (({} : Survey).addAll mixed.reverse).schema? = some other ∧ Agree schema other := by
  obtain ⟨schema, built⟩ : ∃ schema, (({} : Survey).addAll mixed).schema? = some schema :=
    Option.isSome_iff_exists.mp rfl
  obtain ⟨other, otherBuilt⟩ :
      ∃ schema, (({} : Survey).addAll mixed.reverse).schema? = some schema :=
    Option.isSome_iff_exists.mp rfl
  have agree := schema?_of_perm textual_mixed mixed.reverse_perm.symm
  rw [built, otherBuilt] at agree
  cases agree with
  | some agree => exact ⟨schema, other, built, otherBuilt, agree⟩

end Survey

end Typeahead.Schema
