import Typeahead.Proofs.Entries
import Typeahead.Proofs.Schema.Knowledge

/-!
# From a survey to a schema

A schema gives each field the flags that the survey has for its path, with doubles for all numbers.
Linking the profiles to their children does not touch the flags. There is a schema if and only if
all numbers that a field lists have doubles.
-/

namespace Typeahead.Schema

/-! ## Linking -/

section Linking

variable {fields : Entries (Flags Float Text)} {sampled : Int} {path : Text}

/-- Linking keeps the fields, their order and their flags. -/
theorem map_flags_linkFrom (known : Entries Profile) (fields : Entries (Flags Float Text)) :
    (linkFrom known fields).map (fun entry => (entry.1, entry.2.flags)) =
      known.map (fun entry => (entry.1, entry.2.flags)) ++ fields := by
  induction fields generalizing known with
  | nil => simp [linkFrom]
  | cons field rest induct =>
      rw [linkFrom, induct, List.map_append, List.append_assoc]
      rfl

theorem map_flags_find?_linkFrom (distinct : (Entries.keys fields).Nodup) (path : Text) :
    ((linkFrom [] (deepestFirst fields)).find? path).map Profile.flags = fields.find? path := by
  have sorted : (deepestFirst fields).Perm fields := List.mergeSort_perm _ _
  have flags := map_flags_linkFrom [] (deepestFirst fields)
  rw [List.map_nil, List.nil_append] at flags
  rw [← Entries.find?_map, flags]
  refine Entries.find?_of_perm sorted ?_ path
  exact (sorted.map Prod.fst).nodup_iff.mpr distinct

theorem ofFlags_fields (fields : Entries (Flags Float Text)) (sampled : Int) :
    (ofFlags fields sampled).fields =
      fields.filterMap fun entry =>
        ((linkFrom [] (deepestFirst fields)).find? entry.1).map fun profile =>
          (entry.1, profile) :=
  rfl

/-- A schema of fields has their flags. -/
theorem flags?_ofFlags (distinct : (Entries.keys fields).Nodup) (path : Text) :
    (ofFlags fields sampled).flags? path = fields.find? path := by
  rw [flags?, find?, ofFlags_fields, Entries.find?_filterMap]
  by_cases known : path ∈ fields.keys
  · rw [if_pos known, map_flags_find?_linkFrom distinct]
  · rw [if_neg known, Option.map_none]
    symm
    rw [← Option.not_isSome_iff_eq_none, Entries.isSome_find?_iff]
    exact known

/-- A schema of fields has their paths, in their order. -/
theorem paths_ofFlags (distinct : (Entries.keys fields).Nodup) :
    (ofFlags fields sampled).paths = fields.keys := by
  rw [paths, ofFlags_fields, Entries.keys_filterMap]
  intro path member
  rw [← Option.isSome_map, map_flags_find?_linkFrom distinct, Entries.isSome_find?_iff]
  exact member

end Linking

/-! ## Finishing -/

namespace Survey

variable {survey : Survey} {schema : Schema}

/-- The fields of a survey: all its paths but that of the document itself. -/
def fields (survey : Survey) : Table :=
  survey.table.filter fun entry => !entry.1.isEmpty

theorem find?_fields (survey : Survey) (path : Text) :
    survey.fields.find? path = if path = [] then none else survey.table.find? path := by
  rw [fields, Entries.find?_filter survey.table (fun path => !path.isEmpty)]
  cases path <;> simp

theorem schema?_eq (survey : Survey) :
    survey.schema? =
      (Entries.mapValues? finish? survey.fields).map fun fields =>
        Schema.ofFlags fields survey.count :=
  rfl

theorem distinct_fields (distinct : (Entries.keys survey.table).Nodup) :
    (Entries.keys survey.fields).Nodup :=
  List.Sublist.nodup ((List.filter_sublist).map Prod.fst) distinct

/-- A schema tells the number of documents. -/
theorem sampled_of_schema? (built : survey.schema? = some schema) :
    schema.sampled = survey.count := by
  rw [schema?_eq, Option.map_eq_some_iff] at built
  obtain ⟨fields, _, rfl⟩ := built
  rfl

/-- The flags of a field are those of the survey, with doubles. -/
theorem flags?_of_schema? (distinct : (Entries.keys survey.table).Nodup)
    (built : survey.schema? = some schema) (path : Text) :
    schema.flags? path = if path = [] then none else (survey.table.find? path).bind finish? := by
  rw [schema?_eq, Option.map_eq_some_iff] at built
  obtain ⟨fields, finished, rfl⟩ := built
  have sameKeys := Entries.keys_of_mapValues? finished
  rw [Schema.flags?_ofFlags (sameKeys ▸ distinct_fields distinct),
    Entries.find?_of_mapValues? finished, find?_fields]
  split <;> rfl

/-- The paths of a schema are those of the fields of the survey, in their order. -/
theorem paths_of_schema? (distinct : (Entries.keys survey.table).Nodup)
    (built : survey.schema? = some schema) : schema.paths = survey.fields.keys := by
  rw [schema?_eq, Option.map_eq_some_iff] at built
  obtain ⟨fields, finished, rfl⟩ := built
  have sameKeys := Entries.keys_of_mapValues? finished
  rw [Schema.paths_ofFlags (sameKeys ▸ distinct_fields distinct), sameKeys]

/-- The paths of a schema are those of the survey but that of the document itself. -/
theorem mem_paths_of_schema? (distinct : (Entries.keys survey.table).Nodup)
    (built : survey.schema? = some schema) (path : Text) :
    path ∈ schema.paths ↔ path ≠ [] ∧ (survey.table.find? path).isSome := by
  rw [paths_of_schema? distinct built, ← Entries.isSome_find?_iff, find?_fields]
  split <;> simp_all

/-- There is a schema if and only if the flags of all fields can be finished. -/
theorem isSome_schema?_iff (distinct : (Entries.keys survey.table).Nodup) :
    survey.schema?.isSome ↔
      ∀ path flags, path ≠ [] → survey.table.find? path = some flags → (finish? flags).isSome := by
  rw [schema?_eq, Option.isSome_map, Entries.isSome_mapValues?_iff]
  constructor
  · intro finishes path flags present found
    apply finishes (path, flags)
    apply Entries.mem_of_find?_eq_some
    rw [find?_fields, if_neg present, found]
  · rintro finishes ⟨path, flags⟩ member
    have found := Entries.find?_eq_some_of_mem (distinct_fields distinct) member
    rw [find?_fields] at found
    split at found
    · contradiction
    · exact finishes path flags ‹_› found

/-- Finishing keeps the kinds of flags. -/
theorem has_of_finish? {flags : SurveyFlags} {finished : Flags Float Text}
    (done : finish? flags = some finished) (kind : Kind) : finished.has kind = flags.has kind := by
  simp only [finish?, Option.bind_eq_some_iff, Option.map_eq_some_iff] at done
  obtain ⟨numbers, numbersDone, texts, textsDone, rfl⟩ := done
  have present {α β : Type} {turn : α → Option β} {listing : Listing α} {turned : Listing β}
      (turns : convert? turn listing = some turned) : turned.isPresent = listing.isPresent := by
    cases listing with
    | absent => cases turns; rfl
    | unlisted => cases turns; rfl
    | listed values =>
        obtain ⟨others, _, rfl⟩ := Option.map_eq_some_iff.mp turns
        rfl
  cases kind <;> first | rfl | exact present numbersDone | exact present textsDone

end Survey

end Typeahead.Schema
