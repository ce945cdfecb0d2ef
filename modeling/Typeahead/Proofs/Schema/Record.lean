import Typeahead.Proofs.Schema.Sighting

/-!
# What the table of a survey keeps

The table of a survey holds for each path the numbers and texts that were seen there, as far as
they are listed, and the kinds of values that were seen, where null stands also for a name that an
object lacks or that lies below an array. A survey arrives at a route before the value there is
seen. This module says what arriving at a route, seeing a value and leaving the route change.
-/

namespace Typeahead.Schema

open Document (Value Words Number Name)

/-! ## Values at a path -/

/-- The values seen at a path. -/
def valuesAt (seen : List Sighting) (path : Text) : List Value :=
  (seen.filter fun sighting => sighting.path = path).map Sighting.value

theorem valuesAt_concat (seen : List Sighting) (last : Sighting) (path : Text) :
    valuesAt (seen ++ [last]) path =
      if last.path = path then valuesAt seen path ++ [last.value] else valuesAt seen path := by
  by_cases here : last.path = path <;> simp [valuesAt, here]

/-- The number that a value is. -/
def number? : Value → Option Number
  | .number number => some number
  | _ => none

/-- The text that a value is. -/
def words? : Value → Option Words
  | .text words => some words
  | _ => none

/-- The flags that list the numbers among values. -/
def listNumbers (values : List Value) : SurveyFlags :=
  (values.filterMap number?).foldl SurveyFlags.addNumber {}

/-- The flags that list the texts among values. -/
def listTexts (values : List Value) : SurveyFlags :=
  (values.filterMap words?).foldl SurveyFlags.addText {}

theorem listNumbers_concat (values : List Value) (number : Number) :
    listNumbers (values ++ [.number number]) = (listNumbers values).addNumber number := by
  simp [listNumbers, number?]

theorem listNumbers_concat_of_none (values : List Value) {value : Value}
    (other : number? value = none) : listNumbers (values ++ [value]) = listNumbers values := by
  simp [listNumbers, other]

theorem listTexts_concat (values : List Value) (words : Words) :
    listTexts (values ++ [.text words]) = (listTexts values).addText words := by
  simp [listTexts, words?]

theorem listTexts_concat_of_none (values : List Value) {value : Value}
    (other : words? value = none) : listTexts (values ++ [value]) = listTexts values := by
  simp [listTexts, other]

/-! ## Kinds at a path -/

/-- An object has no field of a name. -/
def Lacks (fields : List (Name × Value)) (name : Text) : Prop :=
  ∀ field ∈ fields, field.1 ≠ .text name

/-- A value below which a name may be absent: an array, or an object without a field of the
name. -/
inductive Misses (name : Text) : Value → Prop
  | array {elements : List Value} : Misses name (.array elements)
  | object {fields : List (Name × Value)} : Lacks fields name → Misses name (.object fields)

/-- A route at which a value was seen, or at which the survey has arrived. -/
def Opened (seen : List Sighting) (here route : Route) : Prop :=
  route = here ∨ ∃ value, ⟨route, value⟩ ∈ seen

/-- The kinds that were seen at a path, with null for names that may be absent. -/
inductive Shows (seen : List Sighting) (here : Route) : Text → Kind → Prop
  | value {route : Route} {value : Value} {kind : Kind} :
      ⟨route, value⟩ ∈ seen → Kind.ofValue? value = some kind → Shows seen here route.path kind
  | missing {route : Route} {value : Value} {name : Text} :
      ⟨route, value⟩ ∈ seen → Misses name value → Opened seen here (route ++ [name]) →
        Shows seen here (Route.path (route ++ [name])) .null

variable {seen : List Sighting} {here route : Route}

theorem Opened.of_seen {value : Value} (member : ⟨route, value⟩ ∈ seen) :
    Opened seen here route :=
  .inr ⟨value, member⟩

/-- It does not matter from which of the routes seen a survey looks. -/
theorem opened_congr {there : Route} (hereSeen : ∃ value, ⟨here, value⟩ ∈ seen)
    (thereSeen : ∃ value, ⟨there, value⟩ ∈ seen) :
    Opened seen here route ↔ Opened seen there route := by
  constructor
  · rintro (rfl | known)
    · exact .inr hereSeen
    · exact .inr known
  · rintro (rfl | known)
    · exact .inr thereSeen
    · exact .inr known

/-- The route of the last sighting was opened before. -/
theorem opened_concat {value : Value} :
    Opened (seen ++ [⟨here, value⟩]) here route ↔ Opened seen here route := by
  constructor
  · rintro (same | ⟨other, member⟩)
    · exact .inl same
    · rcases List.mem_append.mp member with before | last
      · exact .inr ⟨other, before⟩
      · cases List.mem_singleton.mp last
        exact .inl rfl
  · rintro (same | ⟨other, member⟩)
    · exact .inl same
    · exact .inr ⟨other, List.mem_append_left _ member⟩

theorem shows_congr {there : Route} {path : Text} {kind : Kind}
    (same : ∀ route, Opened seen here route ↔ Opened seen there route) :
    Shows seen here path kind ↔ Shows seen there path kind := by
  constructor
  · rintro (⟨member, known⟩ | ⟨member, misses, opened⟩)
    · exact .value member known
    · exact .missing member misses ((same _).mp opened)
  · rintro (⟨member, known⟩ | ⟨member, misses, opened⟩)
    · exact .value member known
    · exact .missing member misses ((same _).mpr opened)

/-- What one more value at the current route shows. -/
theorem shows_concat {value : Value} {path : Text} {kind : Kind} :
    Shows (seen ++ [⟨here, value⟩]) here path kind ↔
      Shows seen here path kind ∨ (here.path = path ∧ Kind.ofValue? value = some kind) ∨
        kind = .null ∧ ∃ name, Misses name value ∧ Opened seen here (here ++ [name]) ∧
          Route.path (here ++ [name]) = path := by
  constructor
  · rintro (⟨member, known⟩ | ⟨member, misses, opened⟩)
    · rcases List.mem_append.mp member with before | last
      · exact .inl (.value before known)
      · cases List.mem_singleton.mp last
        exact .inr (.inl ⟨rfl, known⟩)
    · rcases List.mem_append.mp member with before | last
      · exact .inl (.missing before misses (opened_concat.mp opened))
      · cases List.mem_singleton.mp last
        exact .inr (.inr ⟨rfl, _, misses, opened_concat.mp opened, rfl⟩)
  · rintro (shown | ⟨rfl, known⟩ | ⟨rfl, name, misses, opened, rfl⟩)
    · rcases shown with ⟨member, known⟩ | ⟨member, misses, opened⟩
      · exact .value (List.mem_append_left _ member) known
      · exact .missing (List.mem_append_left _ member) misses (opened_concat.mpr opened)
    · exact .value (List.mem_append_right _ (List.mem_singleton_self _)) known
    · exact .missing (List.mem_append_right _ (List.mem_singleton_self _)) misses
        (opened_concat.mpr opened)

/-- Arriving at a route shows only that its name may be absent, if the route is new and a value at
the route above misses the name. -/
theorem shows_arrived {name path : Text} {kind : Kind} (hereSeen : ∃ value, ⟨here, value⟩ ∈ seen) :
    Shows seen (here ++ [name]) path kind ↔
      Shows seen here path kind ∨ kind = .null ∧ Route.path (here ++ [name]) = path ∧
        (∀ value, ⟨here ++ [name], value⟩ ∉ seen) ∧
          ∃ value, ⟨here, value⟩ ∈ seen ∧ Misses name value := by
  by_cases new : ∀ value, ⟨here ++ [name], value⟩ ∉ seen
  · constructor
    · rintro (⟨member, known⟩ | ⟨member, misses, same | known⟩)
      · exact .inl (.value member known)
      · obtain ⟨rfl, tail⟩ := List.append_inj' same rfl
        cases tail
        exact .inr ⟨rfl, rfl, new, _, member, misses⟩
      · exact .inl (.missing member misses (.inr known))
    · rintro (shown | ⟨rfl, rfl, _, value, member, misses⟩)
      · rcases shown with ⟨member, known⟩ | ⟨member, misses, same | known⟩
        · exact .value member known
        · exact .missing member misses (.inr (same ▸ hereSeen))
        · exact .missing member misses (.inr known)
      · exact .missing member misses (.inl rfl)
  · have childSeen : ∃ value, ⟨here ++ [name], value⟩ ∈ seen := by simpa using new
    rw [shows_congr fun _ => opened_congr childSeen hereSeen]
    simp [new]

/-! ## Flags -/

/-- Flags that say what was seen at a path. -/
structure SurveyFlags.Records (seen : List Sighting) (here : Route) (path : Text)
    (flags : SurveyFlags) : Prop where
  numbers : flags.numbers = (listNumbers (valuesAt seen path)).numbers
  texts : flags.texts = (listTexts (valuesAt seen path)).texts
  shows_iff : ∀ kind, flags.has kind = true ↔ Shows seen here path kind

/-- A listing to which a value is added is not absent. -/
theorem Listing.isPresent_add {α : Type} (limit : Nat) (same : α → α → Bool) (value : α)
    (listing : Listing α) : (listing.add limit same value).isPresent = true := by
  cases listing with
  | absent => rfl
  | unlisted => rfl
  | listed values =>
      rw [add]
      split
      · rfl
      · split <;> rfl

namespace SurveyFlags

theorem has_addNumber (flags : SurveyFlags) (number : Number) (kind : Kind) :
    (flags.addNumber number).has kind = (decide (kind = .double) || flags.has kind) := by
  have present := Listing.isPresent_add listLimit Number.same number flags.numbers
  cases kind <;> first | rfl | exact present

theorem has_addText (flags : SurveyFlags) (words : Words) (kind : Kind) :
    (flags.addText words).has kind = (decide (kind = .string) || flags.has kind) := by
  have present : (flags.addText words).texts.isPresent = true := by
    rw [addText]
    dsimp only
    split
    · rfl
    · exact Listing.isPresent_add ..
  cases kind <;> first | rfl | exact present

theorem mark_mark (flags : SurveyFlags) (kind : Kind) :
    (flags.mark kind).mark kind = flags.mark kind := by
  cases kind <;> simp [Flags.mark]

variable {seen : List Sighting} {here : Route} {path : Text} {flags : SurveyFlags}

/-- Flags without a mark record a path where nothing was seen. -/
theorem records_empty (unseen : ∀ sighting ∈ seen, sighting.path ≠ path) (away : here.path ≠ path) :
    Records seen here path {} where
  numbers := by
    have none : valuesAt seen path = [] := by simpa [valuesAt] using unseen
    rw [none]
    rfl
  texts := by
    have none : valuesAt seen path = [] := by simpa [valuesAt] using unseen
    rw [none]
    rfl
  shows_iff kind := by
    constructor
    · intro marked
      cases kind <;> contradiction
    · rintro (⟨member, _⟩ | ⟨_, _, rfl | ⟨value, member⟩⟩)
      · exact absurd rfl (unseen _ member)
      · exact absurd rfl away
      · exact absurd rfl (unseen _ member)

/-- Note a value: list it, or mark its kind. -/
def note (flags : SurveyFlags) : Value → SurveyFlags
  | .number number => flags.addNumber number
  | .text words => flags.addText words
  | value => ((Kind.ofValue? value).map flags.mark).getD flags

theorem has_note (flags : SurveyFlags) (value : Value) (kind : Kind) :
    (flags.note value).has kind =
      (decide (Kind.ofValue? value = some kind) || flags.has kind) := by
  have swap (other : Kind) : decide (other = kind) = decide (kind = other) :=
    decide_eq_decide.mpr eq_comm
  cases value <;>
    simp [note, Kind.ofValue?, has_addNumber, has_addText, Flags.has_mark, swap]

theorem Records.numbers_note (records : flags.Records seen here path) (value : Value) :
    (flags.note value).numbers = (listNumbers (valuesAt seen path ++ [value])).numbers := by
  cases value with
  | number number =>
      rw [listNumbers_concat]
      exact congrArg (Listing.add listLimit Number.same number) records.numbers
  | _ =>
      rw [listNumbers_concat_of_none _ rfl]
      exact records.numbers

theorem Records.texts_note (records : flags.Records seen here path) (value : Value) :
    (flags.note value).texts = (listTexts (valuesAt seen path ++ [value])).texts := by
  cases value with
  | text words =>
      rw [listTexts_concat]
      simp only [note, addText, records.texts]
  | _ =>
      rw [listTexts_concat_of_none _ rfl]
      exact records.texts

/-- The flags of a path after one more value was seen at the current route: the value is noted at
its own path, and names below it that it misses are marked. -/
theorem Records.see (records : flags.Records seen here path) {value : Value} {missed : Prop}
    [Decidable missed]
    (missed_iff : missed ↔ ∃ name, Misses name value ∧ Opened seen here (here ++ [name]) ∧
      Route.path (here ++ [name]) = path) :
    let noted := if here.path = path then flags.note value else flags
    Records (seen ++ [⟨here, value⟩]) here path (if missed then noted.mark .null else noted) := by
  intro noted
  have marked : ∀ kind, (if missed then noted.mark .null else noted).has kind =
      (decide (kind = .null ∧ missed) || noted.has kind) := by
    intro kind
    by_cases misses : missed <;> simp [misses, Flags.has_mark]
  have listed : (if missed then noted.mark .null else noted).numbers = noted.numbers ∧
      (if missed then noted.mark .null else noted).texts = noted.texts := by
    by_cases misses : missed <;> simp [misses, Flags.mark]
  refine ⟨?_, ?_, ?_⟩
  · rw [listed.1, valuesAt_concat]
    by_cases same : here.path = path
    · simpa [noted, Sighting.path, same] using records.numbers_note value
    · simpa [noted, Sighting.path, same] using records.numbers
  · rw [listed.2, valuesAt_concat]
    by_cases same : here.path = path
    · simpa [noted, Sighting.path, same] using records.texts_note value
    · simpa [noted, Sighting.path, same] using records.texts
  · intro kind
    have shown := records.shows_iff kind
    rw [marked, shows_concat, ← shown, ← missed_iff]
    by_cases same : here.path = path
    · simp only [noted, if_pos same, has_note, Bool.or_eq_true, decide_eq_true_eq]
      grind
    · simp only [noted, if_neg same, Bool.or_eq_true, decide_eq_true_eq]
      grind

/-- The flags of the path at which a survey arrives. They are marked if the name is new there and a
value at the route above misses it. -/
theorem Records.arrive {name : Text} {absent : Bool}
    (records : flags.Records seen here (Route.path (here ++ [name])))
    (hereSeen : ∃ value, ⟨here, value⟩ ∈ seen)
    (absent_iff : absent = true ↔ (∀ value, ⟨here ++ [name], value⟩ ∉ seen) ∧
      ∃ value, ⟨here, value⟩ ∈ seen ∧ Misses name value) :
    Records seen (here ++ [name]) (Route.path (here ++ [name]))
      (if absent then flags.mark .null else flags) := by
  have shown (kind : Kind) : Shows seen (here ++ [name]) (Route.path (here ++ [name])) kind ↔
      flags.has kind = true ∨ absent = true ∧ kind = .null := by
    rw [shows_arrived hereSeen, ← records.shows_iff, ← absent_iff]
    simp [and_comm]
  cases absent with
  | true =>
      refine ⟨records.numbers, records.texts, fun kind => ?_⟩
      simp [shown, Flags.has_mark, or_comm]
  | false =>
      refine ⟨records.numbers, records.texts, fun kind => ?_⟩
      simp [shown]

/-- The flags of any other path stay as they are. -/
theorem Records.arrive_elsewhere {name : Text} (records : flags.Records seen here path)
    (hereSeen : ∃ value, ⟨here, value⟩ ∈ seen) (elsewhere : Route.path (here ++ [name]) ≠ path) :
    Records seen (here ++ [name]) path flags := by
  refine ⟨records.numbers, records.texts, fun kind => ?_⟩
  rw [records.shows_iff, shows_arrived hereSeen]
  simp [elsewhere]

end SurveyFlags

/-! ## Tables -/

namespace Table

theorem find?_mark (table : Table) (path : Text) (kind : Kind) (other : Text) :
    (table.mark path kind).find? other =
      if path = other then (table.find? other).map (·.mark kind) else table.find? other :=
  Entries.find?_modify ..

theorem find?_touch (table : Table) (path other : Text) :
    (table.touch path).find? other =
      if path = other then some ((table.find? other).getD {}) else table.find? other := by
  rw [touch, Entries.find?_upsert]
  simp

theorem markNull_cons (table : Table) (path name : Text) (rest : List Text) :
    table.markNull path (name :: rest) = (table.mark (below path name) .null).markNull path rest :=
  rfl

theorem keys_markNull (table : Table) (path : Text) (names : List Text) :
    Entries.keys (table.markNull path names) = Entries.keys table := by
  induction names generalizing table with
  | nil => rfl
  | cons name rest induct =>
      rw [markNull_cons, induct]
      exact Entries.keys_modify ..

theorem find?_markNull (table : Table) (path : Text) (names : List Text) (other : Text) :
    (table.markNull path names).find? other =
      (table.find? other).map fun flags =>
        if ∃ name ∈ names, below path name = other then flags.mark .null else flags := by
  induction names generalizing table with
  | nil => simp [markNull]
  | cons name rest induct =>
      rw [markNull_cons, induct, find?_mark]
      by_cases same : below path name = other
      · rw [if_pos same, Option.map_map]
        congr 1
        funext flags
        by_cases later : ∃ name ∈ rest, below path name = other
        · simp [same, later, SurveyFlags.mark_mark]
        · simp [same, later]
      · simp [same]

/-- A table that says what was seen, at the paths of the routes that were opened. -/
structure Records (seen : List Sighting) (here : Route) (table : Table) : Prop where
  distinct : (Entries.keys table).Nodup
  known : ∀ path, (table.find? path).isSome ↔
    here.path = path ∨ ∃ sighting ∈ seen, sighting.path = path
  flags : ∀ {path flags}, table.find? path = some flags → flags.Records seen here path

variable {seen : List Sighting} {here : Route} {table : Table}

/-- A table after one more value was seen at the current route. -/
theorem Records.see (records : table.Records seen here) {value : Value} {names : List Text}
    (names_iff : ∀ name, name ∈ names ↔ Misses name value ∧ Opened seen here (here ++ [name])) :
    Records (seen ++ [⟨here, value⟩]) here
      (markNull (table.modify here.path (·.note value)) here.path names) where
  distinct := by
    rw [keys_markNull, Entries.keys_modify]
    exact records.distinct
  known path := by
    have before := records.known path
    rw [find?_markNull, Entries.find?_modify]
    constructor
    · intro present
      have old : (table.find? path).isSome := by
        by_cases same : here.path = path <;> simpa [same] using present
      rcases before.mp old with same | ⟨sighting, member, same⟩
      · exact .inl same
      · exact .inr ⟨sighting, List.mem_append_left _ member, same⟩
    · intro seenThere
      have old : (table.find? path).isSome := by
        rcases seenThere with same | ⟨sighting, member, same⟩
        · exact before.mpr (.inl same)
        · rcases List.mem_append.mp member with earlier | last
          · exact before.mpr (.inr ⟨sighting, earlier, same⟩)
          · cases List.mem_singleton.mp last
            exact before.mpr (.inl same)
      by_cases same : here.path = path <;> simpa [same] using old
  flags {path flags} found := by
    rw [find?_markNull, Entries.find?_modify] at found
    have missed_iff : (∃ name ∈ names, below here.path name = path) ↔
        ∃ name, Misses name value ∧ Opened seen here (here ++ [name]) ∧
          Route.path (here ++ [name]) = path := by
      simp only [names_iff, Route.path_concat, and_assoc]
    cases old : table.find? path with
    | none => simp [old] at found
    | some before =>
        have after := (records.flags old).see missed_iff
        by_cases same : here.path = path
        · simp only [old, same, if_true, Option.map_some, Option.some.injEq] at found
          rw [← found]
          simpa only [same, if_true] using after
        · simp only [old, same, if_false, Option.map_some, Option.some.injEq] at found
          rw [← found]
          simpa only [same, if_false] using after

/-- Between routes at which values were seen the survey moves without a trace. -/
theorem Records.move (records : table.Records seen here) {there : Route}
    (hereSeen : ∃ value, ⟨here, value⟩ ∈ seen) (thereSeen : ∃ value, ⟨there, value⟩ ∈ seen) :
    table.Records seen there where
  distinct := records.distinct
  known path := by
    obtain ⟨hereValue, hereMember⟩ := hereSeen
    obtain ⟨thereValue, thereMember⟩ := thereSeen
    rw [records.known]
    constructor
    · rintro (same | known)
      · exact .inr ⟨_, hereMember, same⟩
      · exact .inr known
    · rintro (same | known)
      · exact .inr ⟨_, thereMember, same⟩
      · exact .inr known
  flags found :=
    { numbers := (records.flags found).numbers
      texts := (records.flags found).texts
      shows_iff := fun kind => ((records.flags found).shows_iff kind).trans
        (shows_congr fun _ => opened_congr hereSeen thereSeen) }

/-- The flags of a path, or flags without a mark, record what was seen there. -/
theorem Records.getD (records : table.Records seen here) (path : Text) :
    ((table.find? path).getD {}).Records seen here path := by
  cases found : table.find? path with
  | some flags => exact records.flags found
  | none =>
      have unknown : ¬(here.path = path ∨ ∃ sighting ∈ seen, sighting.path = path) := by
        rw [← records.known, found]
        exact Bool.false_ne_true
      apply SurveyFlags.records_empty
      · intro sighting member same
        exact unknown (.inr ⟨sighting, member, same⟩)
      · intro same
        exact unknown (.inl same)

theorem find?_arrive (table : Table) (child path : Text) (absent : Bool) :
    (if absent then (table.touch child).mark child .null else table.touch child).find? path =
      if child = path then
        some (if absent then ((table.find? path).getD {}).mark .null else (table.find? path).getD {})
      else table.find? path := by
  cases absent with
  | true =>
      simp only [if_true, find?_mark, find?_touch]
      split <;> rfl
  | false => simp only [Bool.false_eq_true, if_false, find?_touch]

/-- Arriving at a name below the current route gives its path flags. They are marked if the name
is new there and a value at the current route misses it. -/
theorem Records.arrive (records : table.Records seen here)
    (hereSeen : ∃ value, ⟨here, value⟩ ∈ seen) {name : Text} {absent : Bool}
    (absent_iff : absent = true ↔ (∀ value, ⟨here ++ [name], value⟩ ∉ seen) ∧
      ∃ value, ⟨here, value⟩ ∈ seen ∧ Misses name value) :
    let child := Route.path (here ++ [name])
    Records seen (here ++ [name])
      (if absent then (table.touch child).mark child .null else table.touch child) := by
  intro child
  refine ⟨?_, ?_, ?_⟩
  · have touched : (Entries.keys (table.touch child)).Nodup :=
      Entries.nodup_keys_upsert records.distinct
    split
    · rw [mark, Entries.keys_modify]
      exact touched
    · exact touched
  · intro path
    rw [find?_arrive]
    by_cases same : child = path
    · simp [child, same]
    · obtain ⟨value, member⟩ := hereSeen
      rw [if_neg same, records.known]
      constructor
      · rintro (atHere | known)
        · exact .inr ⟨_, member, atHere⟩
        · exact .inr known
      · rintro (atChild | known)
        · exact absurd atChild same
        · exact .inr known
  · intro path flags found
    rw [find?_arrive] at found
    by_cases same : child = path
    · rw [if_pos same] at found
      cases found
      subst same
      exact (records.getD child).arrive hereSeen absent_iff
    · rw [if_neg same] at found
      exact (records.flags found).arrive_elsewhere hereSeen same

end Table

end Typeahead.Schema
