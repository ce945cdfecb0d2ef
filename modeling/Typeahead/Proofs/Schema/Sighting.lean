import Typeahead.Schema.Survey

/-!
# What documents show

A document shows a value at the end of each route of names into it. An array is shown at the same
place as its elements. Nothing that is said here depends on the order of the documents or of the
fields in them.

The paths of fields are texts, in which names with points and empty names do not stay apart. So
routes keep the names, and several routes may have one path.
-/

namespace Typeahead.Document

/-- The values that have others below them. -/
inductive IsContainer : Value → Prop
  | array {elements : List Value} : IsContainer (.array elements)
  | object {fields : List (Name × Value)} : IsContainer (.object fields)

/-- Prove a statement about all values from its truth for the values directly below each. -/
theorem Value.induction {motive : Value → Prop}
    (leaf : ∀ value, ¬IsContainer value → motive value)
    (array : ∀ elements, (∀ element ∈ elements, motive element) → motive (array elements))
    (object : ∀ fields, (∀ field ∈ fields, motive field.2) → motive (object fields)) :
    ∀ value, motive value
  | .array elements =>
      array elements fun element member =>
        have : sizeOf element < sizeOf elements := List.sizeOf_lt_of_mem member
        induction leaf array object element
  | .object fields =>
      object fields fun field member =>
        have : sizeOf field.2 < sizeOf fields := by
          have bound := List.sizeOf_lt_of_mem member
          cases field
          simp only [Prod.mk.sizeOf_spec] at bound ⊢
          omega
        induction leaf array object field.2
  | .null | .bool _ | .number _ | .long _ | .text _ | .date _ | .regex _ | .objectId _
  | .binary _ | .timestamp .. | .minKey | .maxKey | .other _ => leaf _ nofun

end Typeahead.Document

namespace Typeahead.Schema

open Document (Value Words Number Name IsContainer)

/-- A document is an object, given by its fields. -/
abbrev Document := List (Name × Value)

/-- The names from a document down to a value. -/
abbrev Route := List Text

/-- The path of a route is the path of the field there. -/
def Route.path (route : Route) : Text :=
  route.foldl Table.below []

@[simp]
theorem Route.path_nil : Route.path [] = [] :=
  rfl

theorem Route.path_concat (route : Route) (name : Text) :
    Route.path (route ++ [name]) = Table.below route.path name := by
  rw [path, List.foldl_append]
  rfl

/-- A value and the route to it. -/
structure Sighting where
  route : Route
  value : Value

/-- The path at which a value is seen. -/
def Sighting.path (sighting : Sighting) : Text :=
  sighting.route.path

mutual

/-- The values that a value at a route shows, itself first. -/
def sightings (route : Route) : Value → List Sighting
  | .array elements => ⟨route, .array elements⟩ :: sightingsOfElements route elements
  | .object fields => ⟨route, .object fields⟩ :: sightingsOfFields route fields
  | value => [⟨route, value⟩]

/-- The values that the elements of an array show; they stand where the array stands. -/
def sightingsOfElements (route : Route) : List Value → List Sighting
  | [] => []
  | element :: rest => sightings route element ++ sightingsOfElements route rest

/-- The values that the fields of an object show, each behind its name. -/
def sightingsOfFields (route : Route) : List (Name × Value) → List Sighting
  | [] => []
  | (name, value) :: rest => sightings (route ++ [name.spelled]) value ++ sightingsOfFields route rest

end

theorem sightings_of_leaf (route : Route) {value : Value} (leaf : ¬IsContainer value) :
    sightings route value = [⟨route, value⟩] := by
  cases value <;> first | rfl | exact (leaf .array).elim | exact (leaf .object).elim

theorem sightingsOfElements_eq_flatMap (route : Route) (elements : List Value) :
    sightingsOfElements route elements = elements.flatMap (sightings route) := by
  induction elements with
  | nil => rfl
  | cons element rest induct => rw [sightingsOfElements, induct, List.flatMap_cons]

theorem sightingsOfFields_eq_flatMap (route : Route) (fields : List (Name × Value)) :
    sightingsOfFields route fields =
      fields.flatMap fun field => sightings (route ++ [field.1.spelled]) field.2 := by
  induction fields with
  | nil => rfl
  | cons field rest induct => rw [sightingsOfFields, induct, List.flatMap_cons]

variable {route : Route} {sighting : Sighting}

/-- An array shows itself and what its elements show. -/
theorem mem_sightings_array_iff {elements : List Value} :
    sighting ∈ sightings route (.array elements) ↔ sighting = ⟨route, .array elements⟩ ∨
      ∃ element ∈ elements, sighting ∈ sightings route element := by
  rw [sightings, List.mem_cons, sightingsOfElements_eq_flatMap, List.mem_flatMap]

/-- An object shows itself and what its fields show. -/
theorem mem_sightings_object_iff {fields : List (Name × Value)} :
    sighting ∈ sightings route (.object fields) ↔ sighting = ⟨route, .object fields⟩ ∨
      ∃ field ∈ fields, sighting ∈ sightings (route ++ [field.1.spelled]) field.2 := by
  rw [sightings, List.mem_cons, sightingsOfFields_eq_flatMap, List.mem_flatMap]

/-- A value shows nothing but what lies below its route. -/
theorem prefix_of_mem_sightings {value : Value} (member : sighting ∈ sightings route value) :
    route <+: sighting.route := by
  induction value using Value.induction generalizing route with
  | leaf value leaf =>
      rw [sightings_of_leaf route leaf, List.mem_singleton] at member
      subst member
      exact List.prefix_refl route
  | array elements below =>
      rcases mem_sightings_array_iff.mp member with rfl | ⟨element, among, inside⟩
      · exact List.prefix_refl route
      · exact below element among inside
  | object fields below =>
      rcases mem_sightings_object_iff.mp member with rfl | ⟨field, among, inside⟩
      · exact List.prefix_refl route
      · exact (List.prefix_append route _).trans (below field among inside)

/-- The values that documents show. -/
def sighted (documents : List Document) : List Sighting :=
  documents.flatMap fun document => sightings [] (.object document)

end Typeahead.Schema
