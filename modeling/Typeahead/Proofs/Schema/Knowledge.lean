import Typeahead.Proofs.Schema.Record

/-!
# What a survey knows of what documents show

The shape of a survey holds below each route the names that were seen there, and it is open at a
route if an array or an object was seen there. Shape and table together record all that documents
show. The induction follows the survey into a value; while it is between two fields of an object,
the names of the fields to come may still be unknown.
-/

namespace Typeahead.Schema

open Document (Value Name IsContainer)

theorem Misses.isContainer {name : Text} {value : Value} (misses : Misses name value) :
    IsContainer value := by
  cases misses with
  | array => exact .array
  | object => exact .object

/-! ## Shapes -/

/-- The children of a shape at a route are the names seen there, up to those of fields that the
survey has not come to. -/
inductive Knows (seen : List Sighting) : List Name → Route → Option (Entries Shape) → Prop
  | mk {waiting : List Name} {route : Route} {children : Option (Entries Shape)}
      (opened : children.isSome ↔ ∃ value, ⟨route, value⟩ ∈ seen ∧ IsContainer value)
      (named : ∀ name, (Entries.find? (children.getD []) name).isSome →
        ∃ value, ⟨route ++ [name], value⟩ ∈ seen)
      (unnamed : ∀ name, Entries.find? (children.getD []) name = none →
        ∀ sighting ∈ seen, ¬route ++ [name] <+: sighting.route)
      (complete : ∀ fields, ⟨route, .object fields⟩ ∈ seen → ∀ field ∈ fields,
        field.1 ∈ waiting ∨ (Entries.find? (children.getD []) field.1.spelled).isSome)
      (deeper : ∀ name child, Entries.find? (children.getD []) name = some child →
        Knows seen [] (route ++ [name]) child.children?) :
      Knows seen waiting route children

/-- Where nothing was seen, nothing is known. -/
theorem Knows.of_unseen {seen : List Sighting} {route : Route}
    (unseen : ∀ sighting ∈ seen, ¬route <+: sighting.route) : Knows seen [] route none := by
  have nowhere (value : Value) : ⟨route, value⟩ ∉ seen := fun member =>
    unseen _ member (List.prefix_refl route)
  constructor
  · simp [nowhere]
  · intro name found
    simp at found
  · intro name _ sighting member below
    exact unseen sighting member ((List.prefix_append route [name]).trans below)
  · intro fields member
    exact absurd member (nowhere _)
  · intro name child found
    simp at found

/-- What is seen elsewhere does not change what is to be known below a route. -/
theorem Knows.append {seen more : List Sighting} {waiting : List Name} {route : Route}
    {children : Option (Entries Shape)} (knows : Knows seen waiting route children)
    (elsewhere : ∀ sighting ∈ more, ¬route <+: sighting.route) :
    Knows (seen ++ more) waiting route children := by
  induction knows with
  | @mk waiting route children opened named unnamed complete deeper induct =>
      have here {value : Value} : ⟨route, value⟩ ∈ seen ++ more ↔ ⟨route, value⟩ ∈ seen := by
        constructor
        · intro member
          rcases List.mem_append.mp member with old | new
          · exact old
          · exact absurd (List.prefix_refl route) (elsewhere _ new)
        · exact List.mem_append_left _
      have below (name : Text) (sighting : Sighting) (member : sighting ∈ more) :
          ¬route ++ [name] <+: sighting.route := fun inside =>
        elsewhere sighting member ((List.prefix_append route [name]).trans inside)
      constructor
      · simpa only [here] using opened
      · intro name found
        obtain ⟨value, member⟩ := named name found
        exact ⟨value, List.mem_append_left _ member⟩
      · intro name absent sighting member
        rcases List.mem_append.mp member with old | new
        · exact unnamed name absent sighting old
        · exact below name sighting new
      · intro fields member
        exact complete fields (here.mp member)
      · intro name child found
        exact induct name child found (below name)

/-! ## Surveys -/

/-- All fields of the objects among sightings have textual names. -/
def Textual (seen : List Sighting) : Prop :=
  ∀ {route fields}, ⟨route, .object fields⟩ ∈ seen → ∀ field ∈ fields, ∃ name, field.1 = .text name

theorem textual_iff {seen : List Sighting} :
    Textual seen ↔ ∀ sighting ∈ seen, ∀ fields, sighting.value = .object fields →
      ∀ field ∈ fields, ∃ name, field.1 = .text name := by
  constructor
  · rintro textual ⟨route, _⟩ member fields rfl
    exact textual member
  · intro textual route fields member
    exact textual _ member fields rfl

theorem Textual.mono {seen more : List Sighting} (textual : Textual more) (part : seen ⊆ more) :
    Textual seen :=
  fun member => textual (part member)

/-- A survey at a route, with the shape there, has recorded what was seen. -/
structure Follows (seen : List Sighting) (route : Route) (shape : Shape) (table : Table) :
    Prop where
  knows : Knows seen [] route shape.children?
  records : table.Records seen route

theorem visit_of_leaf (path : Text) (shape : Shape) (table : Table) {value : Value}
    (leaf : ¬IsContainer value) :
    visit path shape table value = (shape, table.modify path (·.note value)) := by
  have modifyId : table.modify path id = table := by simp [Entries.modify]
  cases value <;>
    first | rfl | exact (leaf .array).elim | exact (leaf .object).elim | exact congrArg _ modifyId.symm

theorem not_below_self (route : Route) (name : Text) : ¬route ++ [name] <+: route := by
  intro inside
  have longer := inside.length_le
  simp only [List.length_append, List.length_singleton] at longer
  omega

/-- A value at the route of a shape opens the shape if it has others below it. The names below it
are still to come. -/
theorem Knows.see {seen : List Sighting} {waiting : List Name} {route : Route}
    {children after : Option (Entries Shape)} {value : Value}
    (knows : Knows seen [] route children) (same : after.getD [] = children.getD [])
    (opens : after.isSome ↔ children.isSome ∨ IsContainer value)
    (waits : ∀ fields, value = .object fields → ∀ field ∈ fields, field.1 ∈ waiting) :
    Knows (seen ++ [⟨route, value⟩]) waiting route after := by
  obtain ⟨opened, named, unnamed, complete, deeper⟩ := knows
  constructor
  · rw [opens, opened]
    constructor
    · rintro (⟨other, member, container⟩ | container)
      · exact ⟨other, List.mem_append_left _ member, container⟩
      · exact ⟨value, List.mem_append_right _ (List.mem_singleton_self _), container⟩
    · rintro ⟨other, member, container⟩
      rcases List.mem_append.mp member with old | last
      · exact .inl ⟨other, old, container⟩
      · cases List.mem_singleton.mp last
        exact .inr container
  · intro name found
    obtain ⟨other, member⟩ := named name (same ▸ found)
    exact ⟨other, List.mem_append_left _ member⟩
  · intro name absent sighting member
    rcases List.mem_append.mp member with old | last
    · exact unnamed name (same ▸ absent) sighting old
    · rw [List.mem_singleton.mp last]
      exact not_below_self route name
  · intro fields member field among
    rcases List.mem_append.mp member with old | last
    · rcases complete fields old field among with impossible | known
      · contradiction
      · exact .inr (same ▸ known)
    · cases List.mem_singleton.mp last
      exact .inl (waits fields rfl field among)
  · intro name child found
    apply (deeper name child (same ▸ found)).append
    intro sighting last
    rw [List.mem_singleton.mp last]
    exact not_below_self route name

/-- The shape that the survey takes for a name below a route. -/
theorem Knows.child {seen : List Sighting} {waiting : List Name} {route : Route}
    {known : Entries Shape} (knows : Knows seen waiting route (some known)) (name : Text) :
    Knows seen [] (route ++ [name]) ((known.find? name).getD (.mk none)).children? := by
  obtain ⟨_, _, unnamed, _, deeper⟩ := knows
  cases found : known.find? name with
  | none => exact Knows.of_unseen (unnamed name found)
  | some child => exact deeper name child found

/-- A name is known if and only if a value was seen there. -/
theorem Knows.isNone_iff {seen : List Sighting} {waiting : List Name} {route : Route}
    {known : Entries Shape} (knows : Knows seen waiting route (some known)) (name : Text) :
    (known.find? name).isNone ↔ ∀ value, ⟨route ++ [name], value⟩ ∉ seen := by
  obtain ⟨_, named, unnamed, _, _⟩ := knows
  constructor
  · intro absent value member
    exact unnamed name (Option.isNone_iff_eq_none.mp absent) _ member (List.prefix_refl _)
  · intro unseen
    rw [Option.isNone_iff_eq_none, Option.eq_none_iff_forall_not_mem]
    intro child found
    obtain ⟨value, member⟩ := named name (Option.isSome_of_mem found)
    exact unseen value member

/-- Names below a route are told apart by what is seen below them. -/
theorem eq_of_both_below {route below : Route} {name other : Text}
    (first : route ++ [name] <+: below) (second : route ++ [other] <+: below) : name = other := by
  have inside : route ++ [name] <+: route ++ [other] :=
    List.prefix_of_prefix_length_le first second (by simp)
  have same : route ++ [name] = route ++ [other] := inside.eq_of_length (by simp)
  simpa using same

/-- The survey comes back from a field with the shape of its name. -/
theorem Knows.insert {seen more : List Sighting} {name : Name} {waiting : List Name}
    {route : Route} {known : Entries Shape} {child : Shape}
    (knows : Knows seen (name :: waiting) route (some known))
    (below : ∀ sighting ∈ more, route ++ [name.spelled] <+: sighting.route)
    (shown : ∃ value, ⟨route ++ [name.spelled], value⟩ ∈ more)
    (childKnows : Knows (seen ++ more) [] (route ++ [name.spelled]) child.children?) :
    Knows (seen ++ more) waiting route (some (known.insert name.spelled child)) := by
  obtain ⟨opened, named, unnamed, complete, deeper⟩ := knows
  simp only [Option.getD_some] at named unnamed complete deeper
  have here {value : Value} : ⟨route, value⟩ ∈ seen ++ more ↔ ⟨route, value⟩ ∈ seen := by
    rw [List.mem_append, or_iff_left]
    intro new
    exact not_below_self route _ (below _ new)
  constructor
  · simpa only [here, Option.isSome_some] using opened
  · intro other found
    rw [Option.getD_some, Entries.find?_insert] at found
    by_cases same : name.spelled = other
    · subst same
      obtain ⟨value, member⟩ := shown
      exact ⟨value, List.mem_append_right _ member⟩
    · rw [if_neg same] at found
      obtain ⟨value, member⟩ := named other found
      exact ⟨value, List.mem_append_left _ member⟩
  · intro other absent sighting member inside
    rw [Option.getD_some, Entries.find?_insert] at absent
    by_cases same : name.spelled = other
    · simp [same] at absent
    · rw [if_neg same] at absent
      rcases List.mem_append.mp member with old | new
      · exact unnamed other absent sighting old inside
      · exact same (eq_of_both_below (below sighting new) inside)
  · intro fields member field among
    rw [Option.getD_some, Entries.find?_insert]
    by_cases same : name.spelled = field.1.spelled
    · exact .inr (by simp [same])
    · rw [if_neg same]
      rcases complete fields (here.mp member) field among with waits | found
      · rcases List.mem_cons.mp waits with rfl | later
        · exact absurd rfl same
        · exact .inl later
      · exact .inr found
  · intro other otherChild found
    rw [Option.getD_some, Entries.find?_insert] at found
    by_cases same : name.spelled = other
    · rw [if_pos same] at found
      cases found
      exact same ▸ childKnows
    · rw [if_neg same] at found
      apply (deeper other otherChild found).append
      intro sighting new inside
      exact same (eq_of_both_below (below sighting new) inside)

/-! ## The survey of a value -/

/-- The survey of a value records all that the value shows, wherever it stands. -/
def Surveys (value : Value) : Prop :=
  ∀ {seen : List Sighting} {route : Route} {shape : Shape} {table : Table},
    Textual (sightings route value) → Follows seen route shape table →
      Follows (seen ++ sightings route value) route (visit route.path shape table value).1
        (visit route.path shape table value).2

theorem self_mem_sightings (route : Route) (value : Value) :
    ⟨route, value⟩ ∈ sightings route value := by
  cases value <;> exact List.mem_cons_self

theorem visitElements_follows {elements : List Value}
    (surveys : ∀ element ∈ elements, Surveys element) {seen : List Sighting} {route : Route}
    {shape : Shape} {table : Table} (textual : Textual (sightingsOfElements route elements))
    (follows : Follows seen route shape table) :
    Follows (seen ++ sightingsOfElements route elements) route
      (visitElements route.path shape table elements).1
      (visitElements route.path shape table elements).2 := by
  induction elements generalizing seen shape table with
  | nil =>
      rw [sightingsOfElements, List.append_nil]
      exact follows
  | cons element rest induct =>
      have first := surveys element List.mem_cons_self
        (textual.mono (List.subset_append_left _ _)) follows
      have others := induct (fun other among => surveys other (List.mem_cons_of_mem _ among))
        (textual.mono (List.subset_append_right _ _)) first
      rw [List.append_assoc] at others
      exact others

/-- The survey of the fields of an object that it has marked. A name that is new is marked, too, if
and only if the route was open before. -/
theorem visitFields_follows {rest : List (Name × Value)}
    (surveys : ∀ field ∈ rest, Surveys field.2) {seen : List Sighting} {route : Route}
    {before : Bool} {known : Entries Shape} {table : Table}
    (textual : Textual (sightingsOfFields route rest))
    (knows : Knows seen (rest.map Prod.fst) route (some known))
    (records : table.Records seen route) (here : ∃ value, ⟨route, value⟩ ∈ seen)
    (brings : ∀ field ∈ rest, (known.find? field.1.spelled).isNone →
      (before = true ↔ ∃ value, ⟨route, value⟩ ∈ seen ∧ Misses field.1.spelled value)) :
    Follows (seen ++ sightingsOfFields route rest) route
      (visitFields route.path before known table rest).1
      (visitFields route.path before known table rest).2 := by
  induction rest generalizing seen known table with
  | nil =>
      rw [sightingsOfFields, List.append_nil]
      exact ⟨knows, records⟩
  | cons field rest induct =>
      rcases field with ⟨name, value⟩
      have absent_iff : ((known.find? name.spelled).isNone && before) = true ↔
          (∀ value, ⟨route ++ [name.spelled], value⟩ ∉ seen) ∧
            ∃ value, ⟨route, value⟩ ∈ seen ∧ Misses name.spelled value := by
        rw [Bool.and_eq_true, ← knows.isNone_iff]
        apply and_congr_right
        intro new
        exact brings _ List.mem_cons_self new
      have arrived : Follows seen (route ++ [name.spelled]) _ _ :=
        ⟨knows.child name.spelled, records.arrive here absent_iff⟩
      have visited := surveys _ List.mem_cons_self
        (textual.mono (List.subset_append_left _ _)) arrived
      have below : ∀ sighting ∈ sightings (route ++ [name.spelled]) value,
          route ++ [name.spelled] <+: sighting.route := fun _ => prefix_of_mem_sightings
      have shown : ⟨route ++ [name.spelled], value⟩ ∈ sightings (route ++ [name.spelled]) value :=
        self_mem_sightings _ value
      obtain ⟨hereValue, hereMember⟩ := here
      have back := visited.records.move ⟨value, List.mem_append_right _ shown⟩
        ⟨hereValue, List.mem_append_left _ hereMember⟩
      have inserted := Knows.insert knows below ⟨value, shown⟩ visited.knows
      rw [Route.path_concat] at back inserted
      have others := induct (fun other among => surveys other (List.mem_cons_of_mem _ among))
        (textual.mono (List.subset_append_right _ _)) inserted back
        ⟨hereValue, List.mem_append_left _ hereMember⟩ ?_
      · rw [List.append_assoc] at others
        exact others
      · intro other among new
        rw [Entries.find?_insert] at new
        split at new
        · contradiction
        · rw [brings other (List.mem_cons_of_mem _ among) new]
          simp only [List.mem_append]
          constructor
          · rintro ⟨missing, member, misses⟩
            exact ⟨missing, .inl member, misses⟩
          · rintro ⟨missing, member | member, misses⟩
            · exact ⟨missing, member, misses⟩
            · exact absurd (below _ member) (not_below_self route _)

theorem Surveys.leaf {value : Value} (leaf : ¬IsContainer value) : Surveys value := by
  intro seen route shape table _ follows
  rw [sightings_of_leaf route leaf, visit_of_leaf route.path shape table leaf]
  constructor
  · refine follows.knows.see rfl ?_ ?_
    · simp [leaf]
    · rintro fields rfl
      exact absurd .object leaf
  · have names_iff : ∀ name, name ∈ ([] : List Text) ↔
        Misses name value ∧ Opened seen route (route ++ [name]) := by
      intro name
      simp only [List.not_mem_nil, false_iff, not_and]
      intro misses
      exact absurd misses.isContainer leaf
    exact follows.records.see names_iff

/-- The names known at a shape are those that were opened below its route. -/
theorem Knows.mem_keys_iff {seen : List Sighting} {route : Route}
    {children : Option (Entries Shape)} (knows : Knows seen [] route children) (name : Text) :
    name ∈ Entries.keys (children.getD []) ↔ Opened seen route (route ++ [name]) := by
  obtain ⟨_, named, unnamed, _, _⟩ := knows
  rw [← Entries.isSome_find?_iff]
  constructor
  · intro found
    exact .inr (named name found)
  · rintro (same | ⟨value, member⟩)
    · simp at same
    · rw [← Option.not_isNone, Bool.not_eq_true', Bool.eq_false_iff]
      intro absent
      exact unnamed name (Option.isNone_iff_eq_none.mp absent) _ member (List.prefix_refl _)

theorem Surveys.array {elements : List Value} (surveys : ∀ element ∈ elements, Surveys element) :
    Surveys (.array elements) := by
  intro seen route shape table textual follows
  have opened : Follows (seen ++ [⟨route, .array elements⟩]) route
      (.mk (some (shape.children?.getD [])))
      ((table.mark route.path .array).markNull route.path
        (Entries.keys (shape.children?.getD []))) := by
    constructor
    · refine follows.knows.see ?_ ?_ ?_
      · rfl
      · simp [Shape.children?, IsContainer.array]
      · intro fields same
        contradiction
    · apply follows.records.see
      intro name
      rw [follows.knows.mem_keys_iff, and_iff_right .array]
  have inside := visitElements_follows surveys
    (textual.mono (List.subset_cons_self _ _)) opened
  rw [List.append_assoc] at inside
  exact inside

theorem mem_missing_iff {known : Entries Shape} {fields : List (Name × Value)} {name : Text} :
    name ∈ missing known fields ↔ name ∈ known.keys ∧ Lacks fields name := by
  simp [missing, Lacks]

theorem Surveys.object {fields : List (Name × Value)}
    (surveys : ∀ field ∈ fields, Surveys field.2) : Surveys (.object fields) := by
  intro seen route shape table textual follows
  have knows : Knows (seen ++ [⟨route, .object fields⟩]) (fields.map Prod.fst) route
      (some (shape.children?.getD [])) := by
    refine follows.knows.see ?_ ?_ ?_
    · rfl
    · simp [IsContainer.object]
    · rintro _ ⟨⟩ field among
      exact List.mem_map_of_mem among
  have records : Table.Records (seen ++ [⟨route, .object fields⟩]) route
      ((table.mark route.path .object).markNull route.path
        (missing (shape.children?.getD []) fields)) := by
    apply follows.records.see
    intro name
    rw [mem_missing_iff, follows.knows.mem_keys_iff, and_comm]
    constructor
    · rintro ⟨lacks, opened⟩
      exact ⟨.object lacks, opened⟩
    · rintro ⟨misses, opened⟩
      cases misses with
      | object lacks => exact ⟨lacks, opened⟩
  have brings : ∀ field ∈ fields,
      ((shape.children?.getD []).find? field.1.spelled).isNone →
        (shape.children?.isSome = true ↔
          ∃ value, ⟨route, value⟩ ∈ seen ++ [⟨route, .object fields⟩] ∧
            Misses field.1.spelled value) := by
    intro field among new
    obtain ⟨opened, _, _, complete, _⟩ := follows.knows
    rw [opened]
    constructor
    · -- What was seen here before misses the name, as all of its names are known.
      rintro ⟨value, member, container⟩
      refine ⟨value, List.mem_append_left _ member, ?_⟩
      cases container with
      | array => exact .array
      | @object others =>
          refine .object fun other inOther named => ?_
          rcases complete others member other inOther with impossible | found
          · contradiction
          · rw [named, Name.spelled, ← Option.not_isNone, new] at found
            contradiction
    · -- The object itself has the name.
      rintro ⟨value, member, misses⟩
      rcases List.mem_append.mp member with old | last
      · exact ⟨value, old, misses.isContainer⟩
      · cases List.mem_singleton.mp last
        obtain ⟨name, named⟩ := textual List.mem_cons_self field among
        cases misses with
        | object lacks =>
            refine absurd ?_ (lacks field among)
            rw [named]
            rfl
  have here : ⟨route, .object fields⟩ ∈ seen ++ [⟨route, .object fields⟩] :=
    List.mem_append_right _ (List.mem_singleton_self _)
  have inside := visitFields_follows surveys (textual.mono (List.subset_cons_self _ _)) knows
    records ⟨_, here⟩ brings
  rw [List.append_assoc] at inside
  exact inside

/-- The survey of a value records all that the value shows. -/
theorem surveys (value : Value) : Surveys value := by
  induction value using Value.induction with
  | leaf value leaf => exact Surveys.leaf leaf
  | array elements below => exact Surveys.array below
  | object fields below => exact Surveys.object below

/-! ## The survey of documents -/

namespace Survey

theorem count_addAll (survey : Survey) (documents : List Document) :
    (survey.addAll documents).count = survey.count + documents.length := by
  induction documents generalizing survey with
  | nil => rfl
  | cons document rest induct =>
      change ((survey.add document).addAll rest).count = _
      rw [induct, List.length_cons]
      change survey.count + 1 + rest.length = _
      omega

theorem follows_empty : Follows [] [] ({} : Survey).shape ({} : Survey).table where
  knows := Knows.of_unseen (by simp)
  records :=
    { distinct := by simp [Entries.keys]
      known := by
        intro path
        rw [Entries.find?_cons]
        by_cases root : [] = path <;> simp [root]
      flags := by
        intro path flags found
        rw [Entries.find?_cons] at found
        split at found
        · cases found
          refine ⟨rfl, rfl, fun kind => ?_⟩
          constructor
          · intro marked
            cases kind <;> contradiction
          · rintro (⟨member, _⟩ | ⟨member, _, _⟩) <;> contradiction
        · simp at found }

/-- The survey of documents records all that they show. -/
theorem follows_addAll {documents : List Document} {survey : Survey} {seen : List Sighting}
    (textual : Textual (sighted documents)) (follows : Follows seen [] survey.shape survey.table) :
    Follows (seen ++ sighted documents) [] (survey.addAll documents).shape
      (survey.addAll documents).table := by
  induction documents generalizing survey seen with
  | nil =>
      rw [sighted, List.flatMap_nil, List.append_nil]
      exact follows
  | cons document rest induct =>
      have first := surveys (.object document) (textual.mono (List.subset_append_left _ _)) follows
      have others := @induct (survey.add document) _
        (textual.mono (List.subset_append_right _ _)) first
      rw [List.append_assoc] at others
      exact others

end Survey

end Typeahead.Schema
