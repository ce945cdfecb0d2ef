import Typeahead.Proofs.Acceptance.Adding
import Typeahead.Proofs.Acceptance.Values
import Typeahead.Proofs.Selector.Paths

/-!
# Appending one element

A new property that is accepted for an object, and a value that is accepted for an array in which
no element holds the caret, append one element to the container and change nothing else: the
changed text is read as the same tree with one more element at the end of that container. This
holds for each container of a tree, wherever it stands and whether a comma follows its last element
or not.
-/

namespace Typeahead.Acceptance

open Selector

/-! ## The appended value -/

/-- A written value with more blanks before it. -/
def padded (blanks : Text) : Written → Written
  | .atom before text after => .atom (blanks ++ before) text after
  | .object before properties rest? after => .object (blanks ++ before) properties rest? after
  | .array before values rest? after => .array (blanks ++ before) values rest? after

section

variable {blanks : Text} {element : Written}

theorem text_padded (blanks : Text) (element : Written) :
    (padded blanks element).text = blanks ++ element.text := by
  cases element <;> simp [padded, Written.text]

theorem outline_padded (blanks : Text) (element : Written) :
    (padded blanks element).outline = element.outline := by
  cases element <;> rfl

theorem padded_wellFormed (wellFormed : element.WellFormed) (blank : blanks.isBlank) :
    (padded blanks element).WellFormed := by
  have more {before : Text} (also : before.isBlank) : Text.isBlank (blanks ++ before) := by
    rw [Text.isBlank_append, blank, also]
    rfl
  cases wellFormed with
  | atom before after form => exact .atom (more before) after form
  | object before after rest headed values => exact .object (more before) after rest headed values
  | array before after rest visible values => exact .array (more before) after rest visible values

theorem not_isBlank_padded (visible : element.text.isBlank = false) :
    (padded blanks element).text.isBlank = false := by
  rw [text_padded, Text.isBlank_append, visible, Bool.and_false]

end

/-! ## Appending at a place of a tree -/

/-- After an edit the text is read as a tree with an outline, wherever the caret is then. -/
def ReadsAs (base : Text) (edit : Edit) (outline : Outline) : Prop :=
  ∀ caret, (parse (edit.apply base) caret).outline = outline

theorem readsAs_of_text {base : Text} {edit : Edit} {written : Written}
    (wellFormed : written.WellFormed) (applied : edit.apply base = written.text) :
    ReadsAs base edit written.outline := by
  intro caret
  rw [applied, wellFormed.parse, wellFormed.outline_node]

section

variable {layers : List Layer} {before after : Text} {rest? : Option Text}

theorem name_newHeading (blanks : Text) (quote : Char) (name : Text) :
    (newHeading blanks quote name).name = spelled name := by
  unfold Heading.name newHeading labelFor spelled
  by_cases bare : isBareName name = true
  · simp [bare]
  · simp [bare]

theorem outline_extended (site : Site) (blanks : Text) (quote : Char) (name : Text) :
    (extended site blanks quote name).object.outline =
      Outline.addProperty (spelled name) (.leaf []) site.object.outline := by
  simp only [Site.object, extended, Written.outline, Outline.addProperty, headedOutlines_eq_map,
    List.map_append, List.map_cons, List.map_nil, name_newHeading]
  rfl

theorem accept_newProperty (base name raw : Text) (start : Nat) (cursor : Option Nat)
    (properties : List (Option Key × Node)) :
    accept base name .newProperty (.object raw start cursor properties) =
      .ok (insertProperty base name (.object raw start cursor properties) properties) := by
  rw [accept, acceptName]
  simp only
  split <;> rfl

/-- A new property is appended to an object in its context. -/
theorem exists_edit_newProperty {properties : List (Heading × Written)}
    (wellFormed : (filled layers (.object before properties rest? after)).WellFormed)
    (colon : EndsWithColon properties) (caret : Caret) (comma : Bool) (name : Text) :
    ∃ edit,
      accept (filled layers (.object before properties rest? after)).text name .newProperty
          ((Written.object before properties rest? after).node (ahead layers).length caret comma) =
        .ok edit ∧
      ReadsAs (filled layers (.object before properties rest? after)).text edit
        (outlineAround layers (Outline.addProperty (spelled name) (.leaf [])
          (Written.object before properties rest? after).outline)) := by
  let site : Site := ⟨layers, before, properties, rest?, after, 0⟩
  obtain ⟨around, object⟩ : _ ∧ site.object.WellFormed :=
    wellFormed_of_filled wellFormed site.not_isBlank_object
  obtain ⟨raw, start, cursor, nodes, node⟩ : ∃ raw start cursor nodes,
      site.object.node (ahead layers).length caret comma = .object raw start cursor nodes :=
    ⟨_, _, _, _, rfl⟩
  obtain ⟨blanks, blank, turns⟩ :=
    exists_turns_insertProperty object colon caret comma name nodes
  have appended := extended_wellFormed object colon blank (isQuote_quoteStyle nodes) name
  refine ⟨insertProperty site.written.text name (site.object.node (ahead layers).length caret comma)
    nodes, ?_, ?_⟩
  · change accept _ _ _ (site.object.node _ caret comma) = _
    rw [node]
    exact accept_newProperty _ _ _ _ _ _
  · have read := readsAs_of_text (wellFormed_filled around appended (Site.not_isBlank_object _))
      turns.text
    rw [outline_filled, outline_extended] at read
    exact read

theorem append_wellFormed {values : List Written} {value : Written}
    (wellFormed : (Written.array before values rest? after).WellFormed)
    (isElement : value.WellFormed) (visible : value.text.isBlank = false) :
    (Written.array before (values ++ [value]) none after).WellFormed := by
  cases wellFormed with
  | array blankBefore blankAfter _ others elements =>
      refine .array blankBefore blankAfter (by simp) ?_ ?_
      · exact List.forall_mem_append.mpr ⟨others, List.forall_mem_singleton.mpr visible⟩
      · exact List.forall_mem_append.mpr ⟨elements, List.forall_mem_singleton.mpr isElement⟩

theorem outline_append (values : List Written) (value : Written) :
    (Written.array before (values ++ [value]) none after).outline =
      Outline.addValue value.outline (Written.array before values rest? after).outline := by
  simp only [Written.outline, Outline.addValue, writtenOutlines_eq_map, List.map_append,
    List.map_cons, List.map_nil]

/-- A value is appended to an array in its context, if no element of the array holds the caret. -/
theorem exists_edit_newValue {values : List Written}
    (wellFormed : (filled layers (.array before values rest? after)).WellFormed)
    {caret : Caret} {comma : Bool}
    (lacks : LacksElement ((Written.array before values rest? after).node (ahead layers).length
      caret comma))
    {value : Text} {expansion : Expansion} (expanded : expand value = .ok expansion)
    {element : Written} (spells : expansion.text = element.text) (isElement : element.WellFormed)
    (visible : element.text.isBlank = false) :
    ∃ edit,
      accept (filled layers (.array before values rest? after)).text value .value
          ((Written.array before values rest? after).node (ahead layers).length caret comma) =
        .ok edit ∧
      ReadsAs (filled layers (.array before values rest? after)).text edit
        (outlineAround layers (Outline.addValue element.outline
          (Written.array before values rest? after).outline)) := by
  have bracketed (values : List Written) (rest? : Option Text) :
      (Written.array before values rest? after).text.isBlank = false := by
    apply @Text.not_isBlank_of_mem _ '[' _ rfl
    rw [Written.text]
    simp
  obtain ⟨around, array⟩ := wellFormed_of_filled wellFormed (bracketed values rest?)
  have shows := shows_array array (ahead layers).length caret comma
  have whole : (filled layers (.array before values rest? after)).text =
      ahead layers ++ (arrayParts before values rest? after).text ++ behind layers :=
    text_filled layers _
  obtain ⟨blanks, blank, applied, _⟩ :=
    shows.exists_insertElement rfl whole expansion
  refine ⟨_, accept_of_lacksElement expanded lacks, ?_⟩
  have appended := append_wellFormed array (padded_wellFormed isElement blank)
    (not_isBlank_padded visible)
  have texts : (Written.array before (values ++ [padded blanks element]) none after).text =
      ((arrayParts before values rest? after).add (blanks ++ expansion.text)).text := by
    rw [Written.text, valueTexts_append, valueTexts, text_padded, spells]
    rfl
  have read := readsAs_of_text (wellFormed_filled around appended (bracketed _ _))
    (applied.trans ((text_filled layers _).trans (by rw [texts])).symm)
  rw [outline_filled, outline_append, outline_padded] at read
  exact read

end

/-! ## Appending at the end of a path -/

/-- In a well-formed text with colons behind its keys, a new property that is accepted for an
object of the tree appends the property to this object, with its name as it is spelled and without
a value; and a value that is accepted for an array without an element at the caret appends the
value to this array. Nothing else in the tree changes. -/
theorem outline_parse_appended {written : Written} (wellFormed : written.WellFormed)
    (colons : written.HasColons) {caret : Int} {path : List Nat} {node : Node}
    (found : (parse written.text caret).at? path = some node) :
    (∀ raw start cursor properties, node = .object raw start cursor properties → ∀ name,
      ∃ edit, accept written.text name .newProperty node = .ok edit ∧
        ReadsAs written.text edit
          ((parse written.text caret).outline.modifyAt
            (Outline.addProperty (spelled name) (.leaf [])) path)) ∧
    (LacksElement node → ∀ (value : Text) (expansion : Expansion) (element : Written),
      expand value = .ok expansion → expansion.text = element.text →
        element.WellFormed → element.text.isBlank = false →
          ∃ edit, accept written.text value .value node = .ok edit ∧
            ReadsAs written.text edit
              ((parse written.text caret).outline.modifyAt
                (Outline.addValue element.outline) path)) := by
  rw [wellFormed.parse] at found ⊢
  rw [wellFormed.outline_node]
  obtain ⟨layers, inner, reaches⟩ := colons.exists_reaches found
  obtain ⟨caret, comma, rfl⟩ := reaches.node
  obtain rfl := reaches.filled
  have innerColons := reaches.colons
  simp only [reaches.outline, Nat.zero_add]
  constructor
  · intro raw start cursor properties isObject name
    cases innerColons with
    | atom => contradiction
    | array => contradiction
    | object keys _ =>
        refine exists_edit_newProperty wellFormed ?_ caret comma name
        exact fun property isLast => keys property (List.mem_of_getLast? isLast)
  · intro lacks value expansion element expanded spells isElement visible
    cases innerColons with
    | atom => exact lacks.elim
    | object => exact lacks.elim
    | array => exact exists_edit_newValue wellFormed lacks expanded spells isElement visible

/-- A tree with commas behind the last elements. -/
def commaTree : Written :=
  .object [] [(⟨[], .bare ['a'], [], true⟩, .array [' '] [.atom [] ['1'] []] (some [' ']) [])]
    (some []) []

theorem commaTree_wellFormed : commaTree.WellFormed := by
  have name : (Label.bare ['a']).WellFormed := @labelFor_wellFormed '"' rfl ['a']
  have one : IsAtom ['1'] := isAtom_singleton rfl rfl rfl (by decide)
  have value : (Written.atom [] ['1'] []).WellFormed := .atom rfl rfl (.inr one)
  have array : (Written.array [' '] [.atom [] ['1'] []] (some [' ']) []).WellFormed :=
    .array rfl rfl (by simp; rfl) (List.forall_mem_singleton.mpr rfl)
      (List.forall_mem_singleton.mpr value)
  exact .object rfl rfl (by simp; rfl) ⟨⟨rfl, name, rfl⟩, by simp, trivial⟩
    (List.forall_mem_singleton.mpr array)

theorem commaTree_hasColons : commaTree.HasColons := by
  have array : (Written.array [' '] [.atom [] ['1'] []] (some [' ']) []).HasColons :=
    .array (List.forall_mem_singleton.mpr .atom)
  exact .object (List.forall_mem_singleton.mpr rfl) (List.forall_mem_singleton.mpr array)

/-- The commas that are there already are those in front of the new elements. -/
theorem outline_parse_appended_commas :
    ∃ array, (parse "{a: [1, ],}".toList (-1)).at? [0] = some array ∧
      (∃ edit, accept "{a: [1, ],}".toList "b c" .newProperty (parse "{a: [1, ],}".toList (-1)) =
          .ok edit ∧
        ReadsAs "{a: [1, ],}".toList edit
          (.object [(some "a", .array [.leaf "1"]), (some "b c", .leaf [])])) ∧
      (∃ edit, accept "{a: [1, ],}".toList "[]" .value array = .ok edit ∧
        ReadsAs "{a: [1, ],}".toList edit
          (.object [(some "a", .array [.leaf "1", .array []])])) := by
  have found : (parse commaTree.text (-1)).at? [0] = some (.array " [1, ],".toList 3 none
      [.span "1,".toList 5 none]) := by
    rw [commaTree_wellFormed.parse]
    rfl
  have outline : (parse commaTree.text (-1)).outline =
      .object [(some "a", .array [.leaf "1"])] := by
    rw [commaTree_wellFormed.parse, commaTree_wellFormed.outline_node]
    rfl
  have root : (parse commaTree.text (-1)).at? [] = some (parse commaTree.text (-1)) := rfl
  obtain ⟨edit, accepted, reads⟩ := (outline_parse_appended commaTree_wellFormed
    commaTree_hasColons root).1 _ _ _ _ (commaTree_wellFormed.parse (-1)) "b c"
  obtain ⟨added, taken, shows⟩ := (outline_parse_appended commaTree_wellFormed
    commaTree_hasColons found).2 rfl "[]" ⟨"[]".toList, 2⟩ (.array [] [] none []) rfl rfl
      (.array rfl rfl (by simp) (by simp) (by simp)) rfl
  rw [outline] at reads shows
  exact ⟨_, found, ⟨edit, accepted, reads⟩, added, taken, shows⟩

end Typeahead.Acceptance
