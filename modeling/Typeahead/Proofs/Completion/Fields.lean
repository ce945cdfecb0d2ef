import Mathlib.Data.List.Nodup
import Typeahead.Proofs.Completion.Totality
import Typeahead.Proofs.Schema.Throughout
import Typeahead.Proofs.Schema.Paths
import Typeahead.Proofs.Trigram.Scores

/-!
# Offered names of fields

What is offered for the name of a field is written behind the part of the name up to its last point.
The name that comes of it is that of a field of the schema below the enclosing path, or a logical
operator where nothing encloses it, and no other key of the object has this name. No name is offered
twice, because the paths of a schema are distinct and a search finds each of them once.
-/

namespace Typeahead.Completion

open Selector
open Acceptance (replacingName)
open Schema (Document Survey)

/-! ## Candidates -/

/-- A name that may be offered below a path next to others. -/
structure Open (schema : Schema) (path : Text) (others : List Text) (name : Text) :
    Prop where
  unused : name ∉ others
  known : (name ∈ logicalOperators ∧ path = []) ∨ joinPath path name ∈ schema.paths

theorem joinPath_eq (path name : Text) : joinPath path name = enclosing path ++ name := by
  unfold joinPath enclosing
  split
  · rfl
  · rw [List.append_assoc]
    rfl

section

variable {typed path : Text} {schema : Schema} {others : List Text}

/-- The logical operators that are offered. -/
def openOperators (typed path : Text) (others : List Text) : List Text :=
  if (enclosing path ++ typed.throughLast '.').isEmpty then
    logicalOperators.filter (!others.contains ·)
  else []

/-- The paths of the schema that are offered. -/
def openPaths (typed : Text) (schema : Schema) (path : Text) (others : List Text) :
    List Text :=
  schema.paths.filter fun field =>
    (enclosing path ++ typed.throughLast '.').isPrefixOf field &&
      field ≠ enclosing path ++ typed.throughLast '.' &&
        !others.contains (field.drop (enclosing path).length)

theorem texts_fieldCandidates (typed : Text) (schema : Schema) (path : Text)
    (others : List Text) :
    (fieldCandidates typed schema path others).map Candidate.text =
      openOperators typed path others ++
        (openPaths typed schema path others).map
          (·.drop (enclosing path ++ typed.throughLast '.').length) := by
  rw [fieldCandidates, List.map_map]
  exact List.map_id _

/-- Operators are offered where nothing encloses the name and no point is typed. -/
theorem of_mem_openOperators {operator : Text}
    (member : operator ∈ openOperators typed path others) :
    operator ∈ logicalOperators ∧ operator ∉ others ∧ path = [] ∧ typed.throughLast '.' = [] := by
  unfold openOperators at member
  split at member
  · rename_i empty
    obtain ⟨outer, kept⟩ := List.append_eq_nil_iff.mp (List.isEmpty_iff.mp empty)
    obtain ⟨isOperator, unused⟩ := List.mem_filter.mp member
    have atTop : path = [] := by
      unfold enclosing at outer
      split at outer
      · exact List.isEmpty_iff.mp ‹_›
      · simp at outer
    exact ⟨isOperator, by simpa using unused, atTop, kept⟩
  · contradiction

theorem open_of_mem_openPaths {field : Text} (member : field ∈ openPaths typed schema path others) :
    ∃ text, field = (enclosing path ++ typed.throughLast '.') ++ text ∧
      Open schema path others (typed.throughLast '.' ++ text) := by
  obtain ⟨listed, conditions⟩ := List.mem_filter.mp member
  simp only [Bool.and_eq_true] at conditions
  obtain ⟨⟨begins, _⟩, unused⟩ := conditions
  obtain ⟨text, rfl⟩ := List.isPrefixOf_iff_prefix.mp begins
  refine ⟨text, rfl, ?_, .inr ?_⟩
  · rw [List.append_assoc, List.drop_left] at unused
    simpa using unused
  · rw [joinPath_eq, ← List.append_assoc]
    exact listed

/-- The name that comes of a candidate may be offered. -/
theorem open_of_mem_fieldCandidates {text : Text}
    (member : text ∈ (fieldCandidates typed schema path others).map Candidate.text) :
    Open schema path others (typed.throughLast '.' ++ text) := by
  rw [texts_fieldCandidates] at member
  rcases List.mem_append.mp member with operator | inner
  · obtain ⟨isOperator, unused, atTop, kept⟩ := of_mem_openOperators operator
    rw [kept, List.nil_append]
    exact ⟨unused, .inl ⟨isOperator, atTop⟩⟩
  · obtain ⟨field, listed, rfl⟩ := List.mem_map.mp inner
    obtain ⟨text, rfl, isOpen⟩ := open_of_mem_openPaths listed
    rw [List.drop_left]
    exact isOpen

/-- Candidates are distinct, unless a path of the schema is a logical operator. -/
theorem nodup_texts_fieldCandidates (distinct : schema.paths.Nodup)
    (noOperator : ∀ operator ∈ logicalOperators, operator ∉ schema.paths) :
    ((fieldCandidates typed schema path others).map Candidate.text).Nodup := by
  rw [texts_fieldCandidates]
  refine List.nodup_append.mpr ⟨?_, ?_, ?_⟩
  · unfold openOperators
    split
    · exact List.filter_sublist.nodup (by decide)
    · exact List.nodup_nil
  · refine List.Nodup.map_on ?_ (List.filter_sublist.nodup distinct)
    intro first firstListed second secondListed same
    obtain ⟨firstText, rfl, _⟩ := open_of_mem_openPaths firstListed
    obtain ⟨secondText, rfl, _⟩ := open_of_mem_openPaths secondListed
    rw [List.drop_left, List.drop_left] at same
    rw [same]
  · rintro operator isOperator _ inner rfl
    obtain ⟨known, _, rfl, kept⟩ := of_mem_openOperators isOperator
    obtain ⟨field, listed, same⟩ := List.mem_map.mp inner
    rw [kept] at same
    obtain rfl : field = operator := same
    exact noOperator field known (List.mem_filter.mp listed).1

end

/-! ## Matching -/

/-- What is found at distinct places of a list without repetitions is found once. -/
theorem nodup_filterMap_getElem? {α : Type} {values : List α} {places : List Nat}
    (values_nodup : values.Nodup) (places_nodup : places.Nodup) :
    (places.filterMap (values[·]?)).Nodup := by
  refine List.Nodup.filterMap ?_ places_nodup
  intro first second value here there
  have inside := (List.getElem?_eq_some_iff.mp here).1
  exact (List.getElem?_inj inside values_nodup).mp (here.trans there.symm)

section

variable {κ : Type} [Add κ] [Mul κ] [Div κ] [NatCast κ] [LE κ] [DecidableLE κ] [LT κ]
  [DecidableLT κ]

/-- The similar candidates stand at distinct places. -/
theorem exists_similarCandidates_perm (log : κ → κ) (candidates : List Candidate) (part : Text) :
    ∃ places : List Nat, places.Nodup ∧
      (similarCandidates log candidates part).Perm (places.filterMap (candidates[·]?)) := by
  refine ⟨_, Trigram.Index.nodup_scored_search log (.build (candidates.map Candidate.terms)) [part]
    (((1 : Nat) : κ) / ((2 : Nat) : κ)), ?_⟩
  unfold similarCandidates
  refine ((List.mergeSort_perm _ _).map Prod.fst).trans (List.Perm.of_eq ?_)
  rw [Trigram.Index.scored, List.filterMap_map, List.map_filterMap]
  congr 1
  funext hit
  simp [Option.map_map, Function.comp_def]

theorem mem_of_mem_matchingCandidates {log : κ → κ} {candidates : List Candidate} {part : Text}
    {candidate : Candidate} (member : candidate ∈ matchingCandidates log candidates part) :
    candidate ∈ candidates := by
  unfold matchingCandidates at member
  split at member
  · exact (List.mem_filter.mp (List.mem_mergeSort.mp member)).1
  · obtain ⟨places, _, perm⟩ := exists_similarCandidates_perm log candidates part.lower
    obtain ⟨place, _, here⟩ := List.mem_filterMap.mp (perm.mem_iff.mp member)
    exact List.mem_of_getElem? here

/-- Of distinct candidates each is found at most once. -/
theorem nodup_texts_matchingCandidates (log : κ → κ) {candidates : List Candidate} (part : Text)
    (distinct : (candidates.map Candidate.text).Nodup) :
    ((matchingCandidates log candidates part).map Candidate.text).Nodup := by
  unfold matchingCandidates
  split
  · refine ((List.mergeSort_perm _ _).map Candidate.text).nodup_iff.mpr ?_
    exact (List.filter_sublist.map Candidate.text).nodup distinct
  · obtain ⟨places, places_nodup, perm⟩ := exists_similarCandidates_perm log candidates part.lower
    refine (perm.map Candidate.text).nodup_iff.mpr ?_
    have found := nodup_filterMap_getElem? distinct places_nodup
    simp only [List.getElem?_map] at found
    rw [List.map_filterMap]
    exact found

end

/-! ## Offered texts -/

section

variable {typed path : Text} {schema : Schema} {others : List Text}

theorem open_of_mem_fieldTexts {log : Float → Float} {text : Text}
    (member : text ∈ fieldTexts log typed schema path others) :
    Open schema path others (typed.throughLast '.' ++ text) := by
  obtain ⟨candidate, taken, rfl⟩ := List.mem_map.mp member
  have matching := mem_of_mem_matchingCandidates (List.mem_of_mem_take taken)
  exact open_of_mem_fieldCandidates (List.mem_map_of_mem matching)

theorem length_fieldTexts_le (log : Float → Float) :
    (fieldTexts log typed schema path others).length ≤ offerLimit := by
  rw [fieldTexts, List.length_map]
  exact List.length_take_le _ _

theorem nodup_fieldTexts (log : Float → Float) (distinct : schema.paths.Nodup)
    (noOperator : ∀ operator ∈ logicalOperators, operator ∉ schema.paths) :
    (fieldTexts log typed schema path others).Nodup := by
  have candidates :
      ((fieldCandidates typed schema path others).map Candidate.text).Nodup :=
    nodup_texts_fieldCandidates distinct noOperator
  have matching := nodup_texts_matchingCandidates log (typed.afterLast '.') candidates
  exact ((List.take_sublist _ _).map Candidate.text).nodup matching

end

/-! ## The object of the name -/

/-- A key of an object has a name, and the caret stands in no part of its property. -/
def NamedElsewhere (properties : List (Option Key × Node)) (index : Nat) (name : Text) : Prop :=
  ∃ place key value, place ≠ index ∧ properties[place]? = some (some key, value) ∧ key.name = name

/-- A name is sought in the properties of an object: what is typed is the name at the caret up to
the caret, and the others are the names of the other keys. -/
structure SoughtIn (properties : List (Option Key × Node)) (index : Nat) (typed? : Option Text)
    (others : List Text) : Prop where
  others : ∀ name, NamedElsewhere properties index name → name ∈ others
  typed : ∀ key value offset, properties[index]? = some (some key, value) →
    key.cursor = some offset → typed? = some (key.name.take offset)

theorem soughtIn_of_locateName {object : Node} {properties : List (Option Key × Node)} {index : Nat}
    {vocabulary other : Vocabulary} {path : Text} {focus : Focus}
    (named : locateName object properties index vocabulary path = some focus)
    {typed? : Option Text} {others : List Text}
    (sought : focus.sought = .name other typed? others) :
    SoughtIn properties index typed? others := by
  have spelled {place : Nat} {key : Key} {value : Node}
      (here : properties[place]? = some (some key, value)) :
      (properties.map propertyName)[place]? = some key.name := by
    rw [List.getElem?_map, here]
    rfl
  simp only [locateName] at named
  split at named
  · rename_i behind
    rw [← Option.some.inj named, Sought.name.injEq] at sought
    obtain ⟨_, rfl, rfl⟩ := sought
    constructor
    · rintro _ ⟨place, key, value, other, here, rfl⟩
      exact List.mem_of_getElem? (spelled here)
    · intro key value offset here
      rw [behind] at here
      contradiction
  · rename_i key? value atCaret
    obtain ⟨key, rfl, named⟩ := Option.bind_eq_some_iff.mp named
    obtain ⟨offset, cursor, rfl⟩ := Option.map_eq_some_iff.mp named
    rw [Sought.name.injEq] at sought
    obtain ⟨_, rfl, rfl⟩ := sought
    constructor
    · rintro _ ⟨place, key, value, other, here, rfl⟩
      exact List.mem_eraseIdx_iff_getElem?.mpr ⟨place, other, spelled here⟩
    · intro keyAt valueAt offsetAt here there
      rw [atCaret, Option.some.injEq, Prod.mk.injEq, Option.some.injEq] at here
      rw [here.1, there, Option.some.injEq] at cursor
      rw [here.1, cursor]

/-- Where the walk finds a name, it is sought in the object of the focus. -/
theorem exists_soughtIn_of_locate {tree : Node} {focus : Focus} (located : tree.locate = some focus)
    {vocabulary : Vocabulary} {typed? : Option Text} {others : List Text}
    (sought : focus.sought = .name vocabulary typed? others) :
    ∃ raw start index properties, focus.context = .object raw start (some index) properties ∧
      SoughtIn properties index typed? others := by
  cases Node.arises_of_locate located with
  | name part named =>
      exact ⟨_, _, _, _, context_of_locateName named, soughtIn_of_locateName named sought⟩
  | value part here outside written =>
      rw [written] at sought
      contradiction
  | element part found =>
      obtain ⟨_, _, rfl⟩ := Option.map_eq_some_iff.mp found
      split at sought <;> contradiction

/-! ## Offered completions -/

/-- A completion of a field name is real, in scope and unused: the name that it leads to is that of
no other key of the object, and it names a field of the schema below the enclosing path, or a logical
operator in the outermost object. It is the name that is written when the completion is accepted. -/
structure Fits (focus : Focus) (schema : Schema) (properties : List (Option Key × Node))
    (index : Nat) (completion : Completion) (name : Text) : Prop where
  written : ∀ key value offset, properties[index]? = some (some key, value) →
    key.cursor = some offset → replacingName key.name offset completion.text = name
  unused : ¬NamedElsewhere properties index name
  known : (name ∈ logicalOperators ∧ focus.path = []) ∨ joinPath focus.path name ∈ schema.paths

/-- The completions of a field name fit, they are few, and they are distinct for a schema of fields
with distinct paths, as those of documents are, none of which is a logical operator. -/
theorem fits_of_sought_fields {text : Text} {caret : Int} {focus : Focus}
    (located : (parse text caret).locate = some focus) {typed? : Option Text} {others : List Text}
    (sought : focus.sought = .name .fields typed? others) {schema : Schema}
    {completions : List Completion}
    (completed : all (parse text caret) (some schema) = .ok completions) :
    (∃ raw start index properties, focus.context = .object raw start (some index) properties ∧
      ∀ completion ∈ completions, Fits focus schema properties index completion
        ((typed?.getD []).throughLast '.' ++ completion.text)) ∧
    completions.length ≤ 5 ∧
    (schema.paths.Nodup → (∀ operator ∈ logicalOperators, operator ∉ schema.paths) →
      (completions.map (·.text)).Nodup) := by
  rw [all_of_located located] at completed
  have texts : completions.map (·.text) =
      fieldTexts Float.log (typed?.getD []) schema focus.path others := by
    rw [(offers_of_atFocus completed).texts, textsAt, sought]
  refine ⟨?_, ?_, ?_⟩
  · obtain ⟨raw, start, index, properties, context, inside⟩ :=
      exists_soughtIn_of_locate located sought
    refine ⟨raw, start, index, properties, context, fun completion member => ?_⟩
    have offered := List.mem_map_of_mem (f := (·.text)) member
    rw [texts] at offered
    have isOpen := open_of_mem_fieldTexts offered
    constructor
    · intro key value offset here cursor
      rw [inside.typed key value offset here cursor]
      rfl
    · exact fun elsewhere => isOpen.unused (inside.others _ elsewhere)
    · exact isOpen.known
  · have length : (fieldTexts Float.log (typed?.getD []) schema focus.path others).length ≤ 5 :=
      length_fieldTexts_le Float.log
    rw [← texts, List.length_map] at length
    exact length
  · intro distinct noOperator
    rw [texts]
    exact nodup_fieldTexts Float.log distinct noOperator

/-- A selector with a field in use, and with another one below the same field half typed. -/
def pointedSelector : Written :=
  .object []
    [(⟨[], .bare "a.c".toList, [], true⟩, .atom [' '] ['1'] []),
      (⟨[' '], .bare "a.b".toList, [], false⟩, .atom [] [] [])] none []

/-- A document with a field and two fields below it. -/
def pointedDocument : Document :=
  [(.text ['a'], .object [(.text "bd".toList, .null), (.text ['c'], .null)])]

/-- The name at the end of the typed part. -/
def pointedFocus : Focus where
  sought := .name .fields (some "a.b".toList) ["a.c".toList]
  path := []
  context := pointedSelector.node 0 (some 12) false

/-- A field below the field of the schema needs no quotes where a selector is read. -/
theorem wellFormed_belowField {c : Char} (part : Acceptance.isNamePart c = true) :
    (Label.bare ['a', '.', c]).WellFormed := by
  refine .bare rfl ?_
  simp only [List.forall_mem_cons, List.not_mem_nil, false_imp_iff, implies_true, and_true]
  exact ⟨by decide, by decide, Acceptance.plain_of_isNamePart part⟩

theorem pointedSelector_wellFormed : pointedSelector.WellFormed := by
  have used : (Label.bare "a.c".toList).WellFormed := @wellFormed_belowField 'c' rfl
  have typed : (Label.bare "a.b".toList).WellFormed := @wellFormed_belowField 'b' rfl
  have one : (Written.atom [' '] ['1'] []).WellFormed :=
    .atom rfl rfl (.inr (isAtom_singleton rfl rfl rfl (by decide)))
  refine .object rfl rfl (by simp) ⟨⟨rfl, used, rfl⟩, by simp, ⟨rfl, typed, rfl⟩, ?_, trivial⟩ ?_
  · exact fun _ => ⟨rfl, rfl, rfl⟩
  · simp only [List.forall_mem_cons, List.not_mem_nil, false_imp_iff, implies_true, and_true]
    exact ⟨one, .atom rfl rfl (.inl rfl)⟩

theorem locate_pointedSelector : (parse pointedSelector.text 12).locate = some pointedFocus := by
  rw [pointedSelector_wellFormed.parse, pointedSelector, Written.node, Node.locate,
    locateSelector_object]
  rfl

theorem exists_pointedSchema :
    ∃ schema, (({} : Survey).addAll [pointedDocument]).schema? = some schema := by
  rw [← Option.isSome_iff_exists]
  apply Survey.isSome_schema?_of_inRange
  simp [Schema.sighted, pointedDocument, Schema.sightings, Schema.sightingsOfFields]

theorem paths_pointedSchema {schema : Schema}
    (built : (({} : Survey).addAll [pointedDocument]).schema? = some schema) :
    schema.paths = ["a".toList, "a.bd".toList, "a.c".toList] :=
  Survey.paths_of_schema? (Survey.distinct_addAll [pointedDocument]) built

theorem all_pointedSelector {schema : Schema}
    (built : (({} : Survey).addAll [pointedDocument]).schema? = some schema) :
    all (parse pointedSelector.text 12) (some schema) =
      .ok [offered pointedFocus "bd".toList] := by
  have matching : (fieldCandidates "a.b".toList schema [] ["a.c".toList]).filter
      (·.begins (Text.lower ['b'])) = [.ofPath "bd".toList] := by
    rw [fieldCandidates, paths_pointedSchema built]
    decide
  have texts : textsAt pointedFocus schema = ["bd".toList] := by
    have sorted := congrArg
      (fun found => ((found.mergeSort shorterFirst).take offerLimit).map Candidate.text) matching
    simp only [List.mergeSort_singleton] at sorted
    exact sorted
  rw [all_of_located locate_pointedSelector, atFocus_of_not_mem (by decide), texts]
  rfl

/-- In the schema of a document the used field is not offered, and the other one is written behind
the point. -/
theorem fits_of_sought_fields_pointed :
    (parse pointedSelector.text 12).locate = some pointedFocus ∧
      ∃ schema, (({} : Survey).addAll [pointedDocument]).schema? = some schema ∧
        all (parse pointedSelector.text 12) (some schema) =
          .ok [offered pointedFocus "bd".toList] ∧
        (∃ raw start index properties,
          pointedFocus.context = .object raw start (some index) properties ∧
            Fits pointedFocus schema properties index (offered pointedFocus "bd".toList)
              "a.bd".toList) ∧
        ([offered pointedFocus "bd".toList].map (·.text)).Nodup := by
  obtain ⟨schema, built⟩ := exists_pointedSchema
  have completed := all_pointedSelector built
  obtain ⟨⟨raw, start, index, properties, context, fits⟩, _, distinct⟩ :=
    fits_of_sought_fields locate_pointedSelector rfl completed
  refine ⟨locate_pointedSelector, schema, built, completed,
    ⟨raw, start, index, properties, context, fits _ List.mem_cons_self⟩,
    distinct (Survey.nodup_paths_of_addAll built) ?_⟩
  rw [paths_pointedSchema built]
  decide

end Typeahead.Completion
