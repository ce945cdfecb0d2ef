import Typeahead.Proofs.Acceptance.Places
import Typeahead.Proofs.Acceptance.Spelling
import Typeahead.Proofs.Selector.Behind
import Typeahead.Proofs.Selector.Reading

/-!
# Accepting a value

A value is accepted in the place of the typed part that it was searched with, or as a new element
behind the last one of an array. Which of the two happens is decided twice: the walk to the caret
decides it by where it ends, and the edit by whether an element holds the caret of the array. The
two agree, except for an array that is itself the typed part and whose caret is in no element.
-/

namespace Typeahead.Acceptance

open Selector

/-! ## The two kinds of edits -/

/-- An array in which no element holds the caret. -/
def LacksElement : Node → Prop
  | .array _ _ cursor values => (cursor.bind fun index => values[index]?) = none
  | _ => False

/-- An edit that removes exactly the typed part of a node and puts an expansion there. -/
structure ReplacesTyped (text typed : Text) (node : Node) (expansion : Expansion) (edit : Edit) :
    Prop where
  start : edit.start = node.start + node.raw.leadingBlanks.length
  removed : edit.removed = typed.length
  typed : (text.drop edit.start).take edit.removed = typed
  inserted : edit.inserted = expansion.text
  caret : edit.caret = edit.start + expansion.offset

/-- The text of an array is cut in front of its closer, or behind its last comma if it has no
closer: all elements stand before the cut, and end with a comma. -/
structure CutsBehindLast (array : Node) (before after : Text) : Prop where
  whole : array.raw = before ++ after
  /-- Only blanks separate the cut from the opener or the last comma. -/
  behind : ∃ front blanks, before = front ++ blanks ∧ blanks.isBlank ∧
    (elementsOf array = [] ∧ front = array.raw.leadingBlanks ++ ['['] ∨
      ∃ last, (elementsOf array).getLast? = some last ∧ last.raw.getLast? = some ',' ∧
        front.getLast? = some ',' ∧ last.stop = array.start + front.length)
  closes : after.isBlank ∨ ∃ rest, after = ']' :: rest ∧ Text.value rest = []

/-- An edit that removes nothing and inserts an expansion behind the last element of an array. -/
structure InsertsLast (text : Text) (array : Node) (expansion : Expansion) (edit : Edit) : Prop where
  shows : Shows text array.raw array.start
  cut : ∃ before after, CutsBehindLast array before after ∧
    edit.start = array.start + before.length
  removed : edit.removed = 0
  inserted : ∃ gap, gap.isBlank ∧ edit.inserted = gap ++ expansion.text ∧
    edit.caret = edit.start + gap.length + expansion.offset

variable {text completion : Text} {least : Nat} {chunk : Chunk} {expansion : Expansion}

/-! ## Replacing -/

theorem shows_value {raw : Text} {start : Nat} (shows : Shows text raw start) :
    Shows text raw.value (start + raw.leadingBlanks.length) := by
  obtain ⟨rest, whole⟩ := Text.value_begins raw
  rw [← Text.leadingBlanks_append_trimLeft raw, ← whole] at shows
  exact shows.right.left

theorem replacesTyped_replaceValue {node : Node} (shows : Shows text node.raw node.start) :
    ReplacesTyped text node.raw.value node expansion (replaceValue node expansion) where
  start := rfl
  removed := rfl
  typed := (shows_value shows).take_drop_eq
  inserted := rfl
  caret := rfl

/-! ## Inserting -/

theorem lacksElement_of_isBehindLast {node : Node} (behind : node.IsBehindLast) :
    LacksElement node := by
  cases node with
  | span => exact behind
  | object => exact behind
  | array raw start cursor values =>
      obtain ⟨index, rfl, absent⟩ := behind
      exact absent

theorem separator_isBlank {place : Place} (needless : place.needsComma = false) :
    (separator text place).isBlank := by
  unfold separator
  rw [needless, if_neg Bool.false_ne_true]
  split <;> rfl

/-- All of a container behind its last element, cut from the text. -/
theorem behindText_eq_of_shows {container : Node} (shows : Shows text container.raw container.start)
    {delimiter : Delimiter} {front rest : Text} (whole : container.raw = front ++ rest)
    (ends : behindElements container delimiter = container.start + front.length) :
    behindText text container delimiter = rest := by
  have raw := shows.take_drop_eq
  rw [behindText, ends, ← List.drop_drop, List.drop_take, Node.stop, Nat.add_sub_cancel_left, raw,
    whole, List.drop_left]

/-- No comma is needed behind a last element that ends with one. -/
theorem needsComma_eq_false {container : Node} {delimiter : Delimiter}
    (comma : ∀ last, (elementsOf container).getLast? = some last → last.raw.getLast? = some ',') :
    (placeIn text container delimiter).needsComma = false := by
  rw [placeIn_needsComma]
  cases isLast : (elementsOf container).getLast? with
  | none => rfl
  | some last =>
      have ends := comma last isLast
      have kept : Text.trimRight last.raw = last.raw := by
        apply Text.trimRight_of_getLast?
        intro c same
        rw [ends, Option.some.injEq] at same
        rw [← same]
        rfl
      rw [Option.any_some, kept, ends]
      rfl

/-- With the caret behind its last element an array gets a new one there, and no comma. -/
theorem insertsLast_insertElement (lies : chunk.Lies text least) {raw : Text} {start : Nat}
    {cursor : Option Nat} {values : List Node}
    (looked : chunk.node = .array raw start cursor values) (behind : chunk.node.IsBehindLast) :
    InsertsLast text chunk.node expansion
      (insertElement text chunk.node .bracket expansion) := by
  have elements : elementsOf chunk.node = values := by
    rw [looked, elementsOf]
  obtain ⟨delimiter, body, found, noBrace, _, _⟩ := chunk.exists_of_node_eq_array looked
  obtain rfl := (lies.delimiter found).resolve_left noBrace
  obtain ⟨front, blanks, after, whole, blank, closes, ends⟩ :=
    lies.exists_of_isBehindLast looked behind
  have shows : Shows text chunk.node.raw chunk.node.start := by
    rw [Chunk.node_raw, Chunk.node_start]
    exact lies.shows
  have ended : behindElements chunk.node .bracket = chunk.node.start + front.length := by
    rcases ends with ⟨empty, rfl⟩ | ⟨last, isLast, _, _, stops⟩
    · rw [behindElements_of_elements_nil found (elements.trans empty), Chunk.node_start,
        List.length_append, List.length_singleton, Nat.add_assoc]
    · have length := congrArg List.length whole
      rw [List.length_append] at length
      rw [behindElements, elements, isLast]
      simp only
      rw [stops, Node.stop, Chunk.node_start, Chunk.node_raw]
      omega
  have rest := behindText_eq_of_shows shows ((Chunk.node_raw chunk).trans whole) ended
  have last : elementsOf chunk.node = [] ∧ front = chunk.node.raw.leadingBlanks ++ ['['] ∨
      ∃ last, (elementsOf chunk.node).getLast? = some last ∧ last.raw.getLast? = some ',' ∧
        front.getLast? = some ',' ∧ last.stop = chunk.node.start + front.length := by
    rw [elements, Chunk.node_raw, Chunk.node_start]
    exact ends
  have needless : (placeIn text chunk.node .bracket).needsComma = false := by
    apply needsComma_eq_false
    intro other isLast
    rcases last with ⟨empty, _⟩ | ⟨last, same, comma, _⟩
    · rw [empty] at isLast
      contradiction
    · rw [Option.some.inj (isLast.symm.trans same)]
      exact comma
  have position := placeIn_position text chunk.node .bracket
  rw [rest, ended] at position
  refine ⟨shows, ?_, rfl, _, separator_isBlank needless, rfl, rfl⟩
  rcases closes with rfl | ⟨tail, rfl, noValue⟩
  · -- Without a closer the place is behind the comma, in front of the blanks.
    rw [List.append_nil] at whole position
    refine ⟨front, blanks, ⟨(Chunk.node_raw chunk).trans whole, ?_, .inl blank⟩, ?_⟩
    · exact ⟨front, [], (List.append_nil _).symm, rfl, last⟩
    · have trimmed : blanks.trimRight = [] := Text.trimRight_append_of_isBlank blank []
      rw [insertElement, position, Delimiter.closer, indexOf?_of_isBlank blank rfl,
        Option.getD_none, trimmed, List.length_nil, Nat.add_zero]
  · refine ⟨front ++ blanks, ']' :: tail, ⟨?_, ⟨front, blanks, rfl, blank, last⟩, ?_⟩, ?_⟩
    · rw [Chunk.node_raw, whole, List.append_assoc]
    · exact .inr ⟨tail, rfl, noValue⟩
    · rw [insertElement, position, Delimiter.closer, indexOf?_blanks_append blank rfl,
        Option.getD_some, List.length_append, Nat.add_assoc]

/-- A new element of an array stands behind its opener. -/
theorem lt_insertElement_start (lies : chunk.Lies text least) {raw : Text} {start : Nat}
    {cursor : Option Nat} {values : List Node}
    (looked : chunk.node = .array raw start cursor values) :
    chunk.start + chunk.raw.leadingBlanks.length <
      (insertElement text chunk.node .bracket expansion).start := by
  obtain ⟨delimiter, body, found, noBrace, _, rfl⟩ := chunk.exists_of_node_eq_array looked
  obtain rfl := (lies.delimiter found).resolve_left noBrace
  obtain ⟨_, _, _, starts, afterOpener, whole, _⟩ := chunk.exists_of_body? found
  have low : behindElements chunk.node .bracket ≤
      (insertElement text chunk.node .bracket expansion).start :=
    (placeIn_position_bounds text chunk.node .bracket).1
  refine Nat.lt_of_lt_of_le ?_ low
  cases isLast : (elementsOf chunk.node).getLast? with
  | none =>
      rw [behindElements_of_elements_nil found (List.getLast?_eq_none_iff.mp isLast)]
      exact Nat.lt_succ_self _
  | some last =>
      have member := List.mem_of_getLast? isLast
      rw [looked, elementsOf] at member
      obtain ⟨value, among, rfl⟩ := List.mem_map.mp member
      have inside : body.Lies text body.start := ⟨Nat.le_refl _, (lies.body found).shows⟩
      have behind := (inside.of_mem_values among).least
      have length := congrArg List.length whole
      rw [List.length_append, List.length_cons] at length
      rw [behindElements, isLast]
      simp only [Node.stop, Chunk.node_start, Chunk.node_raw]
      omega

/-! ## Which of the two -/

theorem LacksElement.exists_array {node : Node} (lacks : LacksElement node) :
    ∃ raw start cursor values, node = .array raw start cursor values := by
  cases node with
  | span => exact lacks.elim
  | object => exact lacks.elim
  | array raw start cursor values => exact ⟨raw, start, cursor, values, rfl⟩

theorem accept_of_lacksElement {node : Node} (expanded : expand completion = .ok expansion)
    (lacks : LacksElement node) :
    accept text completion .value node = .ok (insertElement text node .bracket expansion) := by
  obtain ⟨raw, start, cursor, values, rfl⟩ := lacks.exists_array
  rw [LacksElement] at lacks
  simp only [accept, acceptValue, expanded, lacks]
  rfl

theorem accept_of_not_lacksElement {node : Node} (expanded : expand completion = .ok expansion)
    (holds : ¬LacksElement node) :
    accept text completion .value node = .ok (replaceValue node expansion) := by
  rw [accept, acceptValue, expanded]
  cases node with
  | span => rfl
  | object => rfl
  | array raw start cursor values =>
      rw [LacksElement, ← Option.isNone_iff_eq_none] at holds
      exact congrArg Except.ok (if_neg holds)

/-- A value is accepted in the place of the typed part if and only if it is for no array without
an element at the caret; an array with the caret behind its last element gets a new one. -/
theorem exists_edit_value {caret : Int} {focus : Focus} {typed : Text} {choices : Choices}
    (located : (parse text caret).locate = some focus)
    (sought : focus.sought = .value typed choices) (expanded : expand completion = .ok expansion) :
    ∃ edit, accept text completion .value focus.context = .ok edit ∧
      (focus.context.IsBehindLast → InsertsLast text focus.context expansion edit) ∧
      (ReplacesTyped text typed focus.context expansion edit ↔ ¬LacksElement focus.context) := by
  obtain ⟨chunk, lies, looked⟩ := exists_chunk_of_locate located
  have either := (Node.below_of_locate located).fits typed choices sought
  rw [← looked] at either ⊢
  by_cases lacks : LacksElement chunk.node
  · obtain ⟨raw, start, cursor, values, array⟩ := lacks.exists_array
    refine ⟨_, accept_of_lacksElement expanded lacks, ?_, iff_of_false ?_ (not_not_intro lacks)⟩
    · exact insertsLast_insertElement lies array
    · intro replaces
      have started := replaces.start
      rw [Chunk.node_start, Chunk.node_raw] at started
      exact absurd started (Nat.ne_of_gt (lt_insertElement_start lies array))
  · refine ⟨_, accept_of_not_lacksElement expanded lacks, ?_, iff_of_true ?_ lacks⟩
    · exact fun behind => absurd (lacksElement_of_isBehindLast behind) lacks
    · have same : typed = chunk.node.raw.value := by
        rcases either with same | ⟨_, behind⟩
        · exact same
        · exact absurd (lacksElement_of_isBehindLast behind) lacks
      rw [same]
      apply replacesTyped_replaceValue
      rw [Chunk.node_raw, Chunk.node_start]
      exact lies.shows

/-! ## An array that is the typed part -/

/-- A field with an operator that holds an empty array. -/
def remainderTree : Written :=
  .object []
    [(⟨[], .bare ['a'], [], true⟩,
      .object [' '] [(⟨[], .bare "$mod", [], true⟩, .array [' '] [] none [])] none [])]
    none []

/-- What is read for the array with the caret behind its opener. -/
def remainderArray : Node :=
  .array " []".toList 10 (some 0) []

theorem remainderTree_wellFormed : remainderTree.WellFormed := by
  have field : (Label.bare ['a']).WellFormed := @labelFor_wellFormed '"' rfl ['a']
  have operator : (Label.bare "$mod").WellFormed := @labelFor_wellFormed '"' rfl "$mod"
  have array : (Written.array [' '] [] none []).WellFormed :=
    .array rfl rfl (by simp) (by simp) (by simp)
  have inner : (Written.object [' '] [(⟨[], .bare "$mod", [], true⟩, .array [' '] [] none [])]
      none []).WellFormed :=
    .object rfl rfl (by simp) ⟨⟨rfl, operator, rfl⟩, by simp, trivial⟩
      (List.forall_mem_singleton.mpr array)
  exact .object rfl rfl (by simp) ⟨⟨rfl, field, rfl⟩, by simp, trivial⟩
    (List.forall_mem_singleton.mpr inner)

/-- The array is the typed part, and stands for the whole value of its operator. -/
theorem locate_remainderTree :
    (parse "{a: {$mod: []}}".toList 12).locate =
      some
        { sought := .value "[]".toList (.listed ["[divisor, remainder]".toList] false)
          path := "a"
          context := remainderArray } := by
  have read : parse "{a: {$mod: []}}".toList 12 =
      remainderTree.node 0 (some 12) false := remainderTree_wellFormed.parse 12
  rw [read, Node.locate, remainderTree, Written.node, locateSelector_object]
  change locateFieldValue "a" (.object _ _ _ _) = _
  rw [locateFieldValue, locateOperators_object]
  rfl

/-- The array is searched as a whole, but the completion is put into it. -/
theorem not_replacesTyped_remainder :
    ∃ focus edit, (parse "{a: {$mod: []}}".toList 12).locate = some focus ∧
      focus.sought = .value "[]".toList (.listed ["[divisor, remainder]".toList] false) ∧
        accept "{a: {$mod: []}}".toList "[divisor, remainder]" .value focus.context =
            .ok edit ∧
          edit.apply "{a: {$mod: []}}".toList =
              "{a: {$mod: [[divisor, remainder]]}}".toList ∧
            ∀ expansion, ¬ReplacesTyped "{a: {$mod: []}}".toList "[]".toList
              focus.context expansion edit := by
  refine ⟨_, _, locate_remainderTree, rfl, rfl, rfl, ?_⟩
  intro expansion replaces
  exact absurd replaces.removed (by decide)

/-- With the condition read off: no element holds the caret of the array. -/
theorem exists_edit_remainder :
    ∃ focus edit, (parse "{a: {$mod: []}}".toList 12).locate = some focus ∧
      accept "{a: {$mod: []}}".toList "[4, 0]" .value focus.context = .ok edit ∧
        LacksElement focus.context ∧
          (ReplacesTyped "{a: {$mod: []}}".toList "[]".toList focus.context
            ⟨"[4, 0]".toList, 6⟩ edit ↔ ¬LacksElement focus.context) := by
  have expanded : expand "[4, 0]".toList = .ok ⟨"[4, 0]".toList, 6⟩ := rfl
  obtain ⟨edit, accepted, _, replaced⟩ := exists_edit_value locate_remainderTree rfl expanded
  exact ⟨_, edit, locate_remainderTree, accepted, rfl, replaced⟩

end Typeahead.Acceptance
