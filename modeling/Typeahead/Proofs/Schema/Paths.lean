import Typeahead.Proofs.Schema.Finish
import Typeahead.Proofs.Schema.Invariant

/-!
# Distinct paths

A survey gives flags to each path once, whatever the documents show. So the paths of the schema of
documents are distinct.
-/

namespace Typeahead.Schema

namespace Table

/-- Each path has flags at most once. -/
def Distinct (table : Table) : Prop :=
  (Entries.keys table).Nodup

theorem Distinct.modify {table : Table} (distinct : table.Distinct) (path : Text)
    (change : SurveyFlags → SurveyFlags) : Distinct (Entries.modify table path change) := by
  rw [Distinct, Entries.keys_modify]
  exact distinct

theorem invariant_distinct : Invariant Distinct fun _ => True where
  touch _ distinct := Entries.nodup_keys_upsert distinct
  mark path distinct := distinct.modify path _
  note path _ _ distinct := distinct.modify path _

end Table

namespace Survey

theorem distinct_addAll (documents : List Document) :
    (({} : Survey).addAll documents).table.Distinct :=
  Table.invariant_distinct.addAll (by simp [Table.Distinct, Entries.keys]) fun _ _ => trivial

/-- The schema of documents is linked from fields with distinct paths. -/
theorem exists_fields_of_schema? {documents : List Document} {schema : Schema}
    (built : (({} : Survey).addAll documents).schema? = some schema) :
    ∃ fields : Entries (Flags Float Text),
      Entries.mapValues? finish? (({} : Survey).addAll documents).fields = some fields ∧
        fields.keys.Nodup ∧ schema = Schema.ofFlags fields schema.sampled := by
  rw [schema?_eq, Option.map_eq_some_iff] at built
  obtain ⟨fields, finished, rfl⟩ := built
  exact ⟨fields, finished,
    Entries.keys_of_mapValues? finished ▸ distinct_fields (distinct_addAll documents), rfl⟩

/-- The paths of the schema of documents are distinct. -/
theorem nodup_paths_of_addAll {documents : List Document} {schema : Schema}
    (built : (({} : Survey).addAll documents).schema? = some schema) : schema.paths.Nodup := by
  rw [paths_of_schema? (distinct_addAll documents) built]
  exact distinct_fields (distinct_addAll documents)

end Survey

end Typeahead.Schema
