import Mathlib.Data.List.Induction
import Typeahead.Proofs.Schema.Finish

/-!
# When a field may be null

A field of a schema is flagged null if and only if the documents show a reason: a null value at its
path, an array at the path above, or an object there that lacks its name. This holds for documents
whose names are neither empty nor hold a point, so that each path belongs to one route.
-/

namespace Typeahead.Schema

open Document (Value Name IsContainer)

/-! ## Plain names -/

/-- A name that stays apart in a path. -/
structure IsPlain (name : Text) : Prop where
  present : name ≠ []
  pointless : '.' ∉ name

/-- All fields of the objects among sightings have plain textual names. -/
def PlainlyNamed (seen : List Sighting) : Prop :=
  ∀ {route fields}, ⟨route, .object fields⟩ ∈ seen →
    ∀ field ∈ fields, ∃ name, field.1 = .text name ∧ IsPlain name

theorem plainlyNamed_iff {seen : List Sighting} :
    PlainlyNamed seen ↔ ∀ sighting ∈ seen, ∀ fields, sighting.value = .object fields →
      ∀ field ∈ fields, ∃ name, field.1 = .text name ∧ IsPlain name := by
  constructor
  · rintro named ⟨route, _⟩ member fields rfl
    exact named member
  · intro named route fields member
    exact named _ member fields rfl

theorem PlainlyNamed.mono {seen more : List Sighting} (named : PlainlyNamed more)
    (part : seen ⊆ more) : PlainlyNamed seen :=
  fun member => named (part member)

theorem PlainlyNamed.textual {seen : List Sighting} (named : PlainlyNamed seen) : Textual seen := by
  intro route fields member field among
  obtain ⟨name, same, _⟩ := named member field among
  exact ⟨name, same⟩

/-- The routes into a value with plain names go through plain names. -/
theorem isPlain_of_mem_route {route : Route} {value : Value} {sighting : Sighting} {name : Text}
    (named : PlainlyNamed (sightings route value)) (plain : ∀ name ∈ route, IsPlain name)
    (member : sighting ∈ sightings route value) (through : name ∈ sighting.route) :
    IsPlain name := by
  induction value using Value.induction generalizing route with
  | leaf value leaf =>
      rw [sightings_of_leaf route leaf] at member
      rw [List.mem_singleton.mp member] at through
      exact plain name through
  | array elements below =>
      rcases mem_sightings_array_iff.mp member with rfl | ⟨element, among, inside⟩
      · exact plain name through
      · have inner : sightings route element ⊆ sightings route (.array elements) :=
          fun _ shown => mem_sightings_array_iff.mpr (.inr ⟨element, among, shown⟩)
        exact below element among (named.mono inner) plain inside
  | object fields below =>
      rcases mem_sightings_object_iff.mp member with rfl | ⟨field, among, inside⟩
      · exact plain name through
      · have inner : sightings (route ++ [field.1.spelled]) field.2 ⊆
            sightings route (.object fields) :=
          fun _ shown => mem_sightings_object_iff.mpr (.inr ⟨field, among, shown⟩)
        obtain ⟨last, spelled, lastPlain⟩ := named List.mem_cons_self field among
        refine below field among (named.mono inner) (fun other through => ?_) inside
        rcases List.mem_append.mp through with old | new
        · exact plain other old
        · rw [List.mem_singleton.mp new, spelled]
          exact lastPlain

/-! ## Paths of plain names -/

theorem below_ne_nil {path name : Text} (plain : IsPlain name) : Table.below path name ≠ [] := by
  unfold Table.below
  split
  · exact plain.present
  · simp

/-- The last name of a path is what stands behind its last point. -/
theorem below_inj {path other name last : Text} (plain : IsPlain name) (lastPlain : IsPlain last)
    (same : Table.below path name = Table.below other last) : path = other ∧ name = last := by
  unfold Table.below at same
  cases path with
  | nil =>
      cases other with
      | nil => exact ⟨rfl, same⟩
      | cons c rest =>
          change name = (c :: rest) ++ '.' :: last at same
          exact absurd (same ▸ by simp) plain.pointless
  | cons c rest =>
      cases other with
      | nil =>
          change (c :: rest) ++ '.' :: name = last at same
          exact absurd (same ▸ by simp) lastPlain.pointless
      | cons d more =>
          change (c :: rest) ++ '.' :: name = (d :: more) ++ '.' :: last at same
          rcases List.append_eq_append_iff.mp same with ⟨between, front, back⟩ | ⟨between, front, back⟩
          · cases between with
            | nil => exact ⟨by simpa using front.symm, by simpa using back⟩
            | cons point between =>
                rw [List.cons_append, List.cons.injEq] at back
                exact absurd (back.2 ▸ by simp) plain.pointless
          · cases between with
            | nil => exact ⟨by simpa using front, by simpa using back.symm⟩
            | cons point between =>
                rw [List.cons_append, List.cons.injEq] at back
                exact absurd (back.2 ▸ by simp) lastPlain.pointless

/-- Routes through plain names have paths of their own. -/
theorem Route.path_inj {route other : Route} (plain : ∀ name ∈ route, IsPlain name)
    (otherPlain : ∀ name ∈ other, IsPlain name) (same : route.path = other.path) :
    route = other := by
  induction route using List.reverseRecOn generalizing other with
  | nil =>
      cases other using List.reverseRecOn with
      | nil => rfl
      | append_singleton front last _ =>
          rw [Route.path_concat] at same
          exact absurd same.symm (below_ne_nil (otherPlain last (by simp)))
  | append_singleton front last induct =>
      cases other using List.reverseRecOn with
      | nil =>
          rw [Route.path_concat] at same
          exact absurd same (below_ne_nil (plain last (by simp)))
      | append_singleton otherFront otherLast _ =>
          rw [Route.path_concat, Route.path_concat] at same
          obtain ⟨fronts, lasts⟩ :=
            below_inj (plain last (by simp)) (otherPlain otherLast (by simp)) same
          rw [induct (fun name among => plain name (List.mem_append_left _ among))
            (fun name among => otherPlain name (List.mem_append_left _ among)) fronts, lasts]

/-! ## The null flag -/

/-- The documents show a value at a path. -/
def Observed (documents : List Document) (path : Text) (value : Value) : Prop :=
  ∃ sighting ∈ sighted documents, sighting.path = path ∧ sighting.value = value

variable {documents : List Document} {path name : Text}

/-- The routes of documents with plain names go through plain names. -/
theorem isPlain_of_sighted (named : PlainlyNamed (sighted documents)) {sighting : Sighting}
    (member : sighting ∈ sighted documents) : ∀ name ∈ sighting.route, IsPlain name := by
  intro name through
  obtain ⟨document, among, shown⟩ := List.mem_flatMap.mp member
  have inside : sightings [] (.object document) ⊆ sighted documents := fun other inDocument =>
    List.mem_flatMap.mpr ⟨document, among, inDocument⟩
  exact isPlain_of_mem_route (named.mono inside) (by simp) shown through

theorem eq_null_of_ofValue? {value : Value} (isNull : Kind.ofValue? value = some .null) :
    value = .null := by
  cases value <;> simp [Kind.ofValue?] at isNull ⊢

/-- What shows null below a path: a null value there, or a value at the path that misses the
name. -/
theorem shows_null_iff (named : PlainlyNamed (sighted documents)) (plain : IsPlain name)
    (known : ∃ sighting ∈ sighted documents, sighting.path = Table.below path name) :
    Shows (sighted documents) [] (Table.below path name) .null ↔
      Observed documents (Table.below path name) .null ∨
        ∃ value, Observed documents path value ∧ Misses name value := by
  generalize whole : Table.below path name = below at known
  constructor
  · rintro (⟨member, isNull⟩ | @⟨route, value, last, member, misses, same | ⟨lastValue, opened⟩⟩)
    · exact .inl ⟨_, member, rfl, eq_null_of_ofValue? isNull⟩
    · simp at same
    · have lastPlain := isPlain_of_sighted named opened last (by simp)
      rw [Route.path_concat] at whole
      obtain ⟨rfl, rfl⟩ := below_inj plain lastPlain whole
      exact .inr ⟨value, ⟨_, member, rfl, rfl⟩, misses⟩
  · rintro (⟨⟨route, value⟩, member, rfl, rfl⟩ | ⟨value, ⟨⟨route, _⟩, member, rfl, rfl⟩, misses⟩)
    · exact .value member rfl
    · obtain ⟨⟨knownRoute, knownValue⟩, knownMember, knownPath⟩ := known
      have knownPlain := isPlain_of_sighted named knownMember
      have routePlain := isPlain_of_sighted named member
      have same : knownRoute = route ++ [name] := by
        apply Route.path_inj knownPlain
        · intro other through
          rcases List.mem_append.mp through with above | last
          · exact routePlain other above
          · rw [List.mem_singleton.mp last]
            exact plain
        · rw [Route.path_concat]
          exact knownPath.trans whole.symm
      subst same
      rw [← whole]
      have shown : Shows (sighted documents) [] _ .null :=
        .missing member misses (.of_seen knownMember)
      rw [Route.path_concat] at shown
      exact shown

/-- A field of the schema of documents with plain names is flagged null if and only if the documents
show null there, an array at the path above, or an object there without its name. -/
theorem nullable_iff_observed {schema : Schema} (named : PlainlyNamed (sighted documents))
    (built : (({} : Survey).addAll documents).schema? = some schema) (plain : IsPlain name)
    (child : Table.below path name ∈ schema.paths) :
    ∃ flags, schema.flags? (Table.below path name) = some flags ∧
      (flags.nullable = true ↔
        Observed documents (Table.below path name) .null ∨
          (∃ elements, Observed documents path (.array elements)) ∨
            ∃ fields, Observed documents path (.object fields) ∧ Lacks fields name) := by
  have records := (Survey.follows_addAll named.textual Survey.follows_empty).records
  rw [List.nil_append] at records
  obtain ⟨present, known⟩ :=
    (Survey.mem_paths_of_schema? records.distinct built _).mp child
  obtain ⟨surveyed, found⟩ := Option.isSome_iff_exists.mp known
  have finished := Survey.flags?_of_schema? records.distinct built (Table.below path name)
  rw [if_neg present, found, Option.bind_some] at finished
  have listed : (schema.flags? (Table.below path name)).isSome := by
    rw [Schema.flags?, Option.isSome_map, Schema.find?, Entries.isSome_find?_iff]
    exact child
  obtain ⟨flags, same⟩ := Option.isSome_iff_exists.mp listed
  refine ⟨flags, same, ?_⟩
  have seenThere : ∃ sighting ∈ sighted documents, sighting.path = Table.below path name := by
    rcases (records.known _).mp known with root | seenThere
    · exact absurd root.symm present
    · exact seenThere
  rw [Flags.nullable, Survey.has_of_finish? (finished.symm.trans same),
    (records.flags found).shows_iff, shows_null_iff named plain seenThere]
  apply or_congr_right
  constructor
  · rintro ⟨value, observed, misses⟩
    cases misses with
    | array => exact .inl ⟨_, observed⟩
    | object lacks => exact .inr ⟨_, observed, lacks⟩
  · rintro (⟨elements, observed⟩ | ⟨fields, observed, lacks⟩)
    · exact ⟨_, observed, .array⟩
    · exact ⟨_, observed, .object lacks⟩

/-- An array with an object and null in it, and a document without the field. -/
def scattered : List Document :=
  [[(.text ['a'], .array [.object [(.text ['b'], .bool true)], .null])], []]

theorem scattered_plainlyNamed : PlainlyNamed (sighted scattered) := by
  have outer : IsPlain ['a'] := ⟨by decide, by decide⟩
  have inner : IsPlain ['b'] := ⟨by decide, by decide⟩
  rw [plainlyNamed_iff]
  simp [sighted, scattered, sightings, sightingsOfElements, sightingsOfFields, outer, inner]

/-- The field in the array is flagged null: what stands in an array may be absent. -/
theorem nullable_iff_observed_scattered :
    ∃ schema flags, (({} : Survey).addAll scattered).schema? = some schema ∧
      schema.flags? ['a', '.', 'b'] = some flags ∧ flags.nullable = true := by
  obtain ⟨schema, built⟩ : ∃ schema, (({} : Survey).addAll scattered).schema? = some schema :=
    Option.isSome_iff_exists.mp rfl
  have plain : IsPlain ['b'] := ⟨by decide, by decide⟩
  have records :=
    (Survey.follows_addAll scattered_plainlyNamed.textual Survey.follows_empty).records
  have child : Table.below ['a'] ['b'] ∈ schema.paths :=
    (Survey.mem_paths_of_schema? records.distinct built _).mpr ⟨by decide, rfl⟩
  obtain ⟨flags, found, nullable⟩ :=
    nullable_iff_observed scattered_plainlyNamed built plain child
  have observed :
      Observed scattered ['a'] (.array [.object [(.text ['b'], .bool true)], .null]) :=
    ⟨_, List.mem_cons_of_mem _ List.mem_cons_self, rfl, rfl⟩
  exact ⟨schema, flags, built, found, nullable.mpr (.inr (.inl ⟨_, observed⟩))⟩

end Typeahead.Schema
