import Typeahead.Proofs.Schema.Nullability

/-!
# Which values are listed

A listing takes in values one by one. Whatever it was before, it holds in the end the distinct ones
among them, in the order in which each came first, or it has been given up for good: for one value
too many, or, among texts, for one that is too long. So the flags of a field tell exactly which
numbers and texts the documents show there, and documents have no schema exactly if one of the
numbers that are listed in the end is beyond the range of doubles.
-/

namespace Typeahead.Schema

open Document (Value Words Number Name)

/-! ## Folding values into a listing -/

namespace Listing

variable {α β : Type} {same : α → α → Bool} {limit : Nat}

/-- The listing of distinct values: of up to `limit` of them. -/
def ofDistinct (limit : Nat) (values : List α) : Listing α :=
  if values.isEmpty then absent
  else if values.length ≤ limit then listed values
  else unlisted

theorem ofDistinct_of_le {values : List α} (present : values ≠ []) (few : values.length ≤ limit) :
    ofDistinct limit values = listed values := by
  rw [ofDistinct, if_neg (List.isEmpty_iff.not.mpr present), if_pos few]

theorem ofDistinct_of_lt {values : List α} (many : limit < values.length) :
    ofDistinct limit values = unlisted := by
  have present : values ≠ [] := List.ne_nil_of_length_pos (by omega)
  rw [ofDistinct, if_neg (List.isEmpty_iff.not.mpr present), if_neg (by omega)]

theorem isPresent_ofDistinct {values : List α} :
    (ofDistinct limit values).isPresent = true ↔ values ≠ [] := by
  by_cases present : values = []
  · subst present
    simp [ofDistinct, isPresent]
  · rcases Nat.lt_or_ge limit values.length with many | few
    · simp [ofDistinct_of_lt many, isPresent, present]
    · simp [ofDistinct_of_le present few, isPresent, present]

theorem values?_ofDistinct {values others : List α} :
    (ofDistinct limit values).values? = some others ↔
      values ≠ [] ∧ values.length ≤ limit ∧ values = others := by
  by_cases present : values = []
  · subst present
    simp [ofDistinct, values?]
  · rcases Nat.lt_or_ge limit values.length with many | few
    · simp [ofDistinct_of_lt many, values?, Nat.not_le.mpr many]
    · simp [ofDistinct_of_le present few, values?, present, few]

/-- A listing of distinct values takes in one more if none of them is the same. -/
theorem add_ofDistinct (positive : 0 < limit) (values : List α) (value : α) :
    (ofDistinct limit values).add limit same value =
      ofDistinct limit (if values.any (same value) then values else values ++ [value]) := by
  by_cases present : values = []
  · subst present
    exact (ofDistinct_of_le (List.cons_ne_nil value []) positive).symm
  · have longer : (values ++ [value]).length = values.length + 1 := by
      rw [List.length_append, List.length_singleton]
    rcases Nat.lt_or_ge limit values.length with many | few
    · rw [ofDistinct_of_lt many, add]
      split
      · exact (ofDistinct_of_lt many).symm
      · exact (ofDistinct_of_lt (by omega)).symm
    · rw [ofDistinct_of_le present few, add]
      split
      · exact (ofDistinct_of_le present few).symm
      · split
        · exact (ofDistinct_of_lt (by omega)).symm
        · exact (ofDistinct_of_le (by simp) (by omega)).symm

/-- Behind distinct values, given in reverse, those that are new among some more are listed. -/
theorem foldl_add_ofDistinct (positive : 0 < limit) (values seen : List α) :
    values.foldl (fun listing value => listing.add limit same value)
        (ofDistinct limit seen.reverse) =
      ofDistinct limit (List.eraseDupsBy.loop same values seen) := by
  induction values generalizing seen with
  | nil => rfl
  | cons value rest inductionHypothesis =>
      rw [List.foldl_cons, add_ofDistinct positive, List.any_reverse, List.eraseDupsBy.loop]
      cases seen.any (same value) with
      | true => exact inductionHypothesis seen
      | false =>
          rw [if_neg Bool.false_ne_true, ← List.reverse_cons]
          exact inductionHypothesis (value :: seen)

/-- The values that are folded into an empty listing are listed without their repetitions. -/
theorem foldl_add (positive : 0 < limit) (values : List α) :
    values.foldl (fun listing value => listing.add limit same value) absent =
      ofDistinct limit (values.eraseDupsBy same) :=
  foldl_add_ofDistinct positive values []

/-- A listing that was given up stays so. -/
theorem foldl_add_unlisted (values : List α) :
    values.foldl (fun listing value => listing.add limit same value) unlisted = unlisted := by
  induction values with
  | nil => rfl
  | cons value rest inductionHypothesis => exact inductionHypothesis

/-! ## Turning the listed values into another form -/

variable {turn : α → Option β}

theorem mapM_eq_some_iff {values : List α} {others : List β} :
    values.mapM turn = some others ↔ values.map turn = others.map some := by
  induction values generalizing others with
  | nil => cases others <;> simp
  | cons value rest inductionHypothesis =>
      rw [List.mapM_cons]
      cases others with
      | nil => simp [Option.bind_eq_some_iff]
      | cons first others => simp [Option.bind_eq_some_iff, ← inductionHypothesis]

theorem isSome_mapM_iff {values : List α} :
    (values.mapM turn).isSome ↔ ∀ value ∈ values, (turn value).isSome := by
  induction values with
  | nil => simp
  | cons value rest inductionHypothesis =>
      rw [List.mapM_cons, List.forall_mem_cons, ← inductionHypothesis]
      cases turn value with
      | none => simp
      | some first => cases rest.mapM turn <;> simp

/-- A turned listing lists what the listed values are turned into. -/
theorem values?_of_convert? {listing : Listing α} {turned : Listing β}
    (turns : Survey.convert? turn listing = some turned) {others : List β} :
    turned.values? = some others ↔
      ∃ values, listing.values? = some values ∧ values.map turn = others.map some := by
  cases listing with
  | absent => cases turns; simp [values?]
  | unlisted => cases turns; simp [values?]
  | listed values =>
      obtain ⟨listed, turnsAll, rfl⟩ := Option.map_eq_some_iff.mp turns
      simp [values?, ← mapM_eq_some_iff, turnsAll]

/-- A listing can be turned if and only if its values can. -/
theorem isSome_convert?_iff {listing : Listing α} :
    (Survey.convert? turn listing).isSome ↔
      ∀ values, listing.values? = some values → ∀ value ∈ values, (turn value).isSome := by
  cases listing with
  | absent => simp [Survey.convert?, values?]
  | unlisted => simp [Survey.convert?, values?]
  | listed values =>
      rw [Survey.convert?, Option.isSome_map, isSome_mapM_iff]
      simp [values?]

end Listing

/-! ## Numbers and texts -/

/-- The numbers that documents show at a path, in their order. -/
def numbersAt (documents : List Document) (path : Text) : List Number :=
  (valuesAt (sighted documents) path).filterMap number?

/-- The texts that documents show at a path, in their order. -/
def textsAt (documents : List Document) (path : Text) : List Words :=
  (valuesAt (sighted documents) path).filterMap words?

section Observations

variable {documents : List Document} {path : Text}

theorem mem_valuesAt_iff {value : Value} :
    value ∈ valuesAt (sighted documents) path ↔ Observed documents path value := by
  simp [valuesAt, Observed, and_assoc]

theorem mem_numbersAt_iff {number : Number} :
    number ∈ numbersAt documents path ↔ Observed documents path (.number number) := by
  rw [numbersAt, List.mem_filterMap, ← mem_valuesAt_iff]
  constructor
  · rintro ⟨value, member, known⟩
    cases value <;> simp_all [number?]
  · intro member
    exact ⟨_, member, rfl⟩

theorem mem_textsAt_iff {words : Words} :
    words ∈ textsAt documents path ↔ Observed documents path (.text words) := by
  rw [textsAt, List.mem_filterMap, ← mem_valuesAt_iff]
  constructor
  · rintro ⟨value, member, known⟩
    cases value <;> simp_all [words?]
  · intro member
    exact ⟨_, member, rfl⟩

end Observations

/-- Numbers are listed without their repetitions. -/
theorem numbers_listNumbers (values : List Value) :
    (listNumbers values).numbers =
      .ofDistinct SurveyFlags.listLimit ((values.filterMap number?).eraseDupsBy Number.same) := by
  rw [← Listing.foldl_add (by decide)]
  exact (List.foldl_hom Flags.numbers fun _ _ => rfl).symm

/-- Texts are taken in as other values are, unless one is too long. -/
theorem texts_foldl_addText (flags : SurveyFlags) (texts : List Words) :
    (texts.foldl SurveyFlags.addText flags).texts =
      if ∀ words ∈ texts, words.text.length ≤ SurveyFlags.textLimit then
        texts.foldl (fun listing words =>
          listing.add SurveyFlags.listLimit (fun first second => first = second) words) flags.texts
      else .unlisted := by
  induction texts generalizing flags with
  | nil => simp
  | cons words rest inductionHypothesis =>
      rw [List.foldl_cons, inductionHypothesis, List.foldl_cons, SurveyFlags.addText]
      by_cases long : SurveyFlags.textLimit < words.text.length
      · simp only [if_pos long, Listing.foldl_add_unlisted, ite_self, List.forall_mem_cons]
        rw [if_neg (by omega)]
      · simp only [if_neg long, List.forall_mem_cons, Nat.not_lt.mp long, true_and]

/-- Texts are listed without their repetitions, unless one is too long. -/
theorem texts_listTexts (values : List Value) :
    (listTexts values).texts =
      if ∀ words ∈ values.filterMap words?, words.text.length ≤ SurveyFlags.textLimit then
        .ofDistinct SurveyFlags.listLimit (values.filterMap words?).eraseDups
      else .unlisted := by
  rw [listTexts, texts_foldl_addText, Listing.foldl_add (by decide)]
  rfl

/-! ## What flags tell of documents -/

theorem eraseDupsBy_ne_nil_iff {α : Type} (same : α → α → Bool) {values : List α} :
    values.eraseDupsBy same ≠ [] ↔ values ≠ [] := by
  cases values with
  | nil => simp
  | cons value rest => simp [List.eraseDupsBy_cons]

theorem mem_or_mem_of_mem_loop {α : Type} {same : α → α → Bool} {value : α} {values seen : List α}
    (member : value ∈ List.eraseDupsBy.loop same values seen) : value ∈ values ∨ value ∈ seen := by
  induction values generalizing seen with
  | nil => exact .inr (List.mem_reverse.mp member)
  | cons first rest inductionHypothesis =>
      rw [List.eraseDupsBy.loop] at member
      split at member
      · exact (inductionHypothesis member).imp_left (List.mem_cons_of_mem first)
      · rcases inductionHypothesis member with later | before
        · exact .inl (List.mem_cons_of_mem first later)
        · rcases List.mem_cons.mp before with rfl | earlier
          · exact .inl List.mem_cons_self
          · exact .inr earlier

theorem mem_of_mem_eraseDupsBy {α : Type} {same : α → α → Bool} {value : α} {values : List α}
    (member : value ∈ values.eraseDupsBy same) : value ∈ values :=
  (mem_or_mem_of_mem_loop member).resolve_right List.not_mem_nil

/-- Flags that tell whether documents show numbers and texts at a path, and list the distinct ones
in the order in which they are first shown: up to ten of them, and no texts if one is longer than
fifty characters. Numbers are the same if they have one exact value, and what is not a number is the
same as nothing. -/
structure Flags.Enumerates (documents : List Document) (path : Text) (flags : Flags Float Text) :
    Prop where
  has_double_iff : flags.has .double = true ↔ ∃ number, Observed documents path (.number number)
  doubles_iff : ∀ doubles, flags.numbers.values? = some doubles ↔
    flags.has .double = true ∧
      ((numbersAt documents path).eraseDupsBy Number.same).length ≤ 10 ∧
      ((numbersAt documents path).eraseDupsBy Number.same).map Number.toDouble? =
        doubles.map some
  has_string_iff : flags.has .string = true ↔ ∃ words, Observed documents path (.text words)
  strings_iff : ∀ strings, flags.texts.values? = some strings ↔
    flags.has .string = true ∧
      (∀ words, Observed documents path (.text words) → words.text.length ≤ 50) ∧
      (textsAt documents path).eraseDups.length ≤ 10 ∧
      (textsAt documents path).eraseDups.map Words.text = strings

/-- The distinct numbers that documents show at a path are few enough to be listed, and one of them
is beyond the range of doubles. -/
def ListsBeyond (documents : List Document) (path : Text) : Prop :=
  ((numbersAt documents path).eraseDupsBy Number.same).length ≤ 10 ∧
    ∃ number ∈ (numbersAt documents path).eraseDupsBy Number.same, number.toDouble? = none

section Finishing

variable {documents : List Document} {path : Text} {here : Route} {surveyed : SurveyFlags}

theorem SurveyFlags.Records.numbers_eq
    (records : surveyed.Records (sighted documents) here path) :
    surveyed.numbers =
      .ofDistinct SurveyFlags.listLimit
        ((numbersAt documents path).eraseDupsBy Number.same) := by
  rw [records.numbers, numbers_listNumbers]
  rfl

theorem SurveyFlags.Records.texts_eq (records : surveyed.Records (sighted documents) here path) :
    surveyed.texts =
      if ∀ words ∈ textsAt documents path, words.text.length ≤ SurveyFlags.textLimit then
        .ofDistinct SurveyFlags.listLimit (textsAt documents path).eraseDups
      else .unlisted := by
  rw [records.texts, texts_listTexts]
  rfl

theorem SurveyFlags.Records.has_double_iff
    (records : surveyed.Records (sighted documents) here path) :
    surveyed.has .double = true ↔ numbersAt documents path ≠ [] := by
  rw [Flags.has, records.numbers_eq, Listing.isPresent_ofDistinct, eraseDupsBy_ne_nil_iff]

theorem SurveyFlags.Records.has_string_iff
    (records : surveyed.Records (sighted documents) here path) :
    surveyed.has .string = true ↔ textsAt documents path ≠ [] := by
  rw [Flags.has, records.texts_eq]
  split
  · rw [Listing.isPresent_ofDistinct, List.eraseDups, eraseDupsBy_ne_nil_iff]
  · rename_i long
    simp only [Listing.isPresent, true_iff]
    rintro none
    simp [none] at long

/-- All numbers that the flags list have doubles. -/
def SurveyFlags.InRange (flags : SurveyFlags) : Prop :=
  ∀ values, flags.numbers.values? = some values → ∀ number ∈ values, number.toDouble?.isSome

/-- Flags can be finished if and only if all numbers that they list have doubles. -/
theorem SurveyFlags.isSome_finish?_iff {flags : SurveyFlags} :
    (Survey.finish? flags).isSome ↔ flags.InRange := by
  have textsTurn : (Survey.convert? (fun words : Words => some words.text) flags.texts).isSome :=
    Listing.isSome_convert?_iff.mpr fun _ _ _ _ => rfl
  obtain ⟨texts, textsTurned⟩ := Option.isSome_iff_exists.mp textsTurn
  rw [SurveyFlags.InRange, ← Listing.isSome_convert?_iff, Survey.finish?, textsTurned]
  cases Survey.convert? Number.toDouble? flags.numbers <;> rfl

theorem SurveyFlags.Records.inRange_iff
    (records : surveyed.Records (sighted documents) here path) :
    surveyed.InRange ↔ ¬ListsBeyond documents path := by
  simp only [SurveyFlags.InRange, records.numbers_eq, Listing.values?_ofDistinct, ListsBeyond,
    SurveyFlags.listLimit, not_and, not_exists, ← Option.isSome_iff_ne_none, ← ne_eq]
  constructor
  · intro inRange few number member
    exact inRange _ ⟨List.ne_nil_of_mem member, few, rfl⟩ number member
  · rintro inRange _ ⟨-, few, rfl⟩ number member
    exact inRange few number member

/-- Flags that record what documents show, with doubles for all numbers, tell it. -/
theorem SurveyFlags.Records.enumerates (records : surveyed.Records (sighted documents) here path)
    {flags : Flags Float Text} (finished : Survey.finish? surveyed = some flags) :
    flags.Enumerates documents path := by
  have kinds := Survey.has_of_finish? finished
  simp only [Survey.finish?, Option.bind_eq_some_iff, Option.map_eq_some_iff] at finished
  obtain ⟨numbers, numbersTurned, texts, textsTurned, rfl⟩ := finished
  refine ⟨?_, fun doubles => ?_, ?_, fun strings => ?_⟩
  · rw [kinds, records.has_double_iff, ← List.isEmpty_eq_false_iff,
      List.isEmpty_eq_false_iff_exists_mem]
    simp only [mem_numbersAt_iff]
  · rw [Listing.values?_of_convert? numbersTurned, records.numbers_eq, kinds,
      records.has_double_iff, ← eraseDupsBy_ne_nil_iff Number.same]
    simp [Listing.values?_ofDistinct, and_assoc, SurveyFlags.listLimit]
  · rw [kinds, records.has_string_iff, ← List.isEmpty_eq_false_iff,
      List.isEmpty_eq_false_iff_exists_mem]
    simp only [mem_textsAt_iff]
  · have turned (values : List Words) :
        values.map (fun words => some words.text) = strings.map some ↔
          values.map Words.text = strings := by
      have both : values.map (fun words => some words.text) = (values.map Words.text).map some :=
        List.map_map.symm
      rw [both, List.map_inj_right fun _ _ => Option.some.inj]
    have limits : SurveyFlags.listLimit = 10 ∧ SurveyFlags.textLimit = 50 := ⟨rfl, rfl⟩
    rw [Listing.values?_of_convert? textsTurned, records.texts_eq, kinds, records.has_string_iff]
    simp only [← mem_textsAt_iff, turned, limits]
    split
    · rename_i short
      rw [and_iff_right short, ← eraseDupsBy_ne_nil_iff (· == ·)]
      simp only [Listing.values?_ofDistinct, and_assoc]
      simp [List.eraseDups]
    · rename_i long
      simp only [Listing.values?, reduceCtorEq, false_and, exists_false, false_iff]
      rintro ⟨_, short, _⟩
      exact long short

end Finishing

/-! ## Schemas -/

namespace Survey

/-- Documents whose names are texts have no schema if and only if a number that one of their paths
lists is beyond the range of doubles. -/
theorem schema?_eq_none_iff {documents : List Document} (textual : Textual (sighted documents)) :
    (({} : Survey).addAll documents).schema? = none ↔
      ∃ path, path ≠ [] ∧ ListsBeyond documents path := by
  have records := (follows_addAll textual follows_empty).records
  rw [List.nil_append] at records
  rw [← Option.not_isSome_iff_eq_none, isSome_schema?_iff records.distinct]
  constructor
  · intro unfinished
    simp only [not_forall] at unfinished
    obtain ⟨path, surveyed, present, found, unfinished⟩ := unfinished
    rw [SurveyFlags.isSome_finish?_iff, (records.flags found).inRange_iff, not_not] at unfinished
    exact ⟨path, present, unfinished⟩
  · rintro ⟨path, present, beyond⟩ finishes
    obtain ⟨number, member, -⟩ := beyond.2
    obtain ⟨sighting, seen, same, -⟩ := mem_numbersAt_iff.mp (mem_of_mem_eraseDupsBy member)
    obtain ⟨surveyed, found⟩ :=
      Option.isSome_iff_exists.mp ((records.known path).mpr (.inr ⟨sighting, seen, same⟩))
    have finished := finishes path surveyed present found
    rw [SurveyFlags.isSome_finish?_iff, (records.flags found).inRange_iff] at finished
    exact finished beyond

/-- Documents whose names are texts and whose numbers have doubles give a schema of the paths at
which they show a value, and the flags at each path tell the numbers and texts there. -/
theorem enumerates_of_addAll {documents : List Document} (textual : Textual (sighted documents))
    (inRange : ∀ path number, Observed documents path (.number number) →
      number.toDouble?.isSome) :
    ∃ schema, (({} : Survey).addAll documents).schema? = some schema ∧
      (∀ path, path ∈ schema.paths ↔ path ≠ [] ∧ ∃ value, Observed documents path value) ∧
      ∀ path ∈ schema.paths, ∃ flags, schema.flags? path = some flags ∧
        flags.Enumerates documents path := by
  have records := (follows_addAll textual follows_empty).records
  rw [List.nil_append] at records
  have finishes : (({} : Survey).addAll documents).schema?.isSome := by
    rw [Option.isSome_iff_ne_none, Ne, schema?_eq_none_iff textual]
    rintro ⟨path, -, -, number, member, far⟩
    have near := inRange path number (mem_numbersAt_iff.mp (mem_of_mem_eraseDupsBy member))
    rw [far] at near
    contradiction
  obtain ⟨schema, built⟩ := Option.isSome_iff_exists.mp finishes
  have mem_paths (path : Text) := mem_paths_of_schema? records.distinct built path
  refine ⟨schema, built, fun path => ?_, fun path member => ?_⟩
  · rw [mem_paths, records.known]
    apply and_congr_right
    intro present
    rw [Route.path_nil, or_iff_right present.symm]
    constructor
    · rintro ⟨sighting, member, same⟩
      exact ⟨sighting.value, sighting, member, same, rfl⟩
    · rintro ⟨_, sighting, member, same, _⟩
      exact ⟨sighting, member, same⟩
  · obtain ⟨present, known⟩ := (mem_paths path).mp member
    obtain ⟨surveyed, found⟩ := Option.isSome_iff_exists.mp known
    obtain ⟨flags, same⟩ : ∃ flags, schema.flags? path = some flags := by
      rw [← Option.isSome_iff_exists, Schema.flags?, Option.isSome_map, Schema.find?,
        Entries.isSome_find?_iff]
      exact member
    refine ⟨flags, same, (records.flags found).enumerates ?_⟩
    rw [← same, flags?_of_schema? records.distinct built, if_neg present, found, Option.bind_some]

/-- An array of numbers and an object, a name with a point in it, and code beside a text. -/
def repeated : List Document :=
  [[(.text ['a'], .array [.number (.integer 2), .object [(.text ['b'], .text { text := ['x'] })],
      .number (.double 2)])],
    [(.text ['a', '.', 'b'], .text { text := ['x'], isCode := true }),
      (.text ['a'], .number (.integer 1))]]

theorem textual_repeated : Textual (sighted repeated) := by
  rw [textual_iff]
  simp [sighted, repeated, sightings, sightingsOfElements, sightingsOfFields, or_imp, forall_and]

/-- The integer and the double of one value are listed once, the text and the code both. -/
theorem enumerates_of_addAll_repeated :
    ∃ schema numbered texted, (({} : Survey).addAll repeated).schema? = some schema ∧
      schema.flags? ['a'] = some numbered ∧
      numbered.numbers.values? = some [Float.ofInt 2, Float.ofInt 1] ∧
      schema.flags? ['a', '.', 'b'] = some texted ∧
      texted.texts.values? = some [['x'], ['x']] := by
  have inRange : ∀ path number, Observed repeated path (.number number) →
      number.toDouble?.isSome := by
    rintro path number ⟨⟨route, value⟩, member, rfl, rfl⟩
    simp only [sighted, repeated, sightings, sightingsOfElements, sightingsOfFields, Name.spelled,
      List.flatMap_cons, List.flatMap_nil, List.append_nil, List.cons_append, List.nil_append,
      List.mem_cons, Sighting.mk.injEq, Value.number.injEq, reduceCtorEq, and_false, false_or,
      or_false, List.not_mem_nil] at member
    rcases member with ⟨_, rfl⟩ | ⟨_, rfl⟩ | ⟨_, rfl⟩
    · decide +kernel
    · rfl
    · decide +kernel
  obtain ⟨schema, built, mem_paths, tells⟩ := enumerates_of_addAll textual_repeated inRange
  have numbers : numbersAt repeated ['a'] = [.integer 2, .double 2, .integer 1] := rfl
  have texts : textsAt repeated ['a', '.', 'b'] =
      [{ text := ['x'] }, { text := ['x'], isCode := true }] := rfl
  have number : Observed repeated ['a'] (.number (.integer 2)) := by
    rw [← mem_numbersAt_iff, numbers]
    exact List.mem_cons_self
  have text : Observed repeated ['a', '.', 'b'] (.text { text := ['x'] }) := by
    rw [← mem_textsAt_iff, texts]
    exact List.mem_cons_self
  obtain ⟨numbered, foundNumbered, tellsNumbers⟩ :=
    tells ['a'] ((mem_paths _).mpr ⟨by decide, _, number⟩)
  obtain ⟨texted, foundTexted, tellsTexts⟩ :=
    tells ['a', '.', 'b'] ((mem_paths _).mpr ⟨by decide, _, text⟩)
  have known : Number.same (.double 2) (.integer 2) = true := by
    decide +kernel
  have new : Number.same (.integer 1) (.integer 2) = false := by
    decide +kernel
  have distinctNumbers : (numbersAt repeated ['a']).eraseDupsBy Number.same =
      [.integer 2, .integer 1] := by
    simp [numbers, List.eraseDupsBy, List.eraseDupsBy.loop, known, new]
  have doubles : [Number.integer 2, .integer 1].map Number.toDouble? =
      [Float.ofInt 2, Float.ofInt 1].map some := by
    decide +kernel
  refine ⟨schema, numbered, texted, built, foundNumbered, ?_, foundTexted, ?_⟩
  · rw [tellsNumbers.doubles_iff, distinctNumbers]
    exact ⟨tellsNumbers.has_double_iff.mpr ⟨_, number⟩, by decide, doubles⟩
  · rw [tellsTexts.strings_iff, texts]
    refine ⟨tellsTexts.has_string_iff.mpr ⟨_, text⟩, fun words shown => ?_, by decide, by decide⟩
    have short : ∀ words ∈ textsAt repeated ['a', '.', 'b'], words.text.length ≤ 50 := by
      rw [texts]
      decide
    exact short words (mem_textsAt_iff.mpr shown)

end Survey

end Typeahead.Schema
