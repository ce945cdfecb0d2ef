import Typeahead.Proofs.Schema.Knowledge

/-!
# Checked surveys

A survey changes the flags of paths that it takes to have some: those of the path at which a value
stands, and those of names that are remembered below it. A checked survey looks each of these paths
up and fails if it has no flags. It makes flags only for the path of a field that it comes to.
-/

namespace Typeahead.Schema

open Document (Value Name IsContainer)

namespace Table

/-- Change the flags of a path; fail if it has none. -/
def change? (table : Table) (path : Text) (change : SurveyFlags → SurveyFlags) : Option Table :=
  (table.find? path).map fun _ => table.modify path change

theorem change?_eq_some_iff {table later : Table} {path : Text}
    {change : SurveyFlags → SurveyFlags} :
    table.change? path change = some later ↔
      path ∈ Entries.keys table ∧ table.modify path change = later := by
  rw [change?, Option.map_eq_some_iff, ← Entries.isSome_find?_iff, Option.isSome_iff_exists]
  exact exists_and_right

/-- Note that the fields with some names below a path may be absent; fail if one has no flags. -/
def markNull? (table : Table) (path : Text) (names : List Text) : Option Table :=
  names.foldlM (fun table name => table.change? (below path name) (·.mark .null)) table

theorem markNull?_cons (table : Table) (path name : Text) (rest : List Text) :
    table.markNull? path (name :: rest) =
      (table.change? (below path name) (·.mark .null)).bind (·.markNull? path rest) :=
  rfl

/-- Names below a path can be marked if and only if all of them have flags. -/
theorem markNull?_eq_some_iff {table later : Table} {path : Text} {names : List Text} :
    table.markNull? path names = some later ↔
      (∀ name ∈ names, below path name ∈ Entries.keys table) ∧
        table.markNull path names = later := by
  induction names generalizing table with
  | nil => simp [markNull?, markNull]
  | cons name rest inductionHypothesis =>
      rw [markNull?_cons, Option.bind_eq_some_iff, List.forall_mem_cons, and_assoc]
      constructor
      · rintro ⟨marked, changed, others⟩
        obtain ⟨known, rfl⟩ := change?_eq_some_iff.mp changed
        rw [inductionHypothesis, Entries.keys_modify] at others
        exact ⟨known, others⟩
      · rintro ⟨known, others⟩
        refine ⟨_, change?_eq_some_iff.mpr ⟨known, rfl⟩, ?_⟩
        rw [inductionHypothesis, Entries.keys_modify]
        exact others

end Table

mutual

/-- Note a value at a path; fail if a path that is looked up has no flags. -/
def visit? (path : Text) (shape : Shape) (table : Table) : Value → Option (Shape × Table)
  | .array elements => do
      let known := shape.children?.getD []
      let noted ← table.change? path (·.mark .array)
      let marked ← noted.markNull? path known.keys
      visitElements? path (.mk (some known)) marked elements
  | .object fields => do
      let known := shape.children?.getD []
      let noted ← table.change? path (·.mark .object)
      let marked ← noted.markNull? path (missing known fields)
      visitFields? path shape.children?.isSome known marked fields
  | value => (table.change? path (·.note value)).map fun noted => (shape, noted)

/-- Note the elements of an array at the path of the array, with checked look-ups. -/
def visitElements? (path : Text) (shape : Shape) (table : Table) :
    List Value → Option (Shape × Table)
  | [] => some (shape, table)
  | element :: rest => do
      let visited ← visit? path shape table element
      visitElements? path visited.1 visited.2 rest

/-- Note the fields of an object, with checked look-ups below them. -/
def visitFields? (path : Text) (seen : Bool) (known : Entries Shape) (table : Table) :
    List (Name × Value) → Option (Shape × Table)
  | [] => some (.mk (some known), table)
  | (name, value) :: rest => do
      let name := name.spelled
      let child := Table.below path name
      let touched := table.touch child
      let isNew := (known.find? name).isNone
      let marked := if isNew && seen then touched.mark child .null else touched
      let visited ← visit? child ((known.find? name).getD (.mk none)) marked value
      visitFields? path seen (known.insert name visited.1) visited.2 rest

end

theorem visit?_of_leaf (path : Text) (shape : Shape) (table : Table) {value : Value}
    (leaf : ¬IsContainer value) :
    visit? path shape table value =
      (table.change? path (·.note value)).map fun noted => (shape, noted) := by
  cases value <;> first | rfl | exact (leaf .array).elim | exact (leaf .object).elim

namespace Survey

/-- Fold one document into the survey; fail if a path that is looked up has no flags. -/
def add? (survey : Survey) (document : Document) : Option Survey :=
  (visit? [] survey.shape survey.table (.object document)).map fun visited =>
    { shape := visited.1, table := visited.2, count := survey.count + 1 }

/-- Fold documents into the survey, with checked look-ups. -/
def addAll? (survey : Survey) (documents : List Document) : Option Survey :=
  documents.foldlM add? survey

end Survey

end Typeahead.Schema
