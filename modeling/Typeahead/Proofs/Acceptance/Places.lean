import Typeahead.Acceptance.Basic
import Typeahead.Proofs.Selector.Balanced
import Typeahead.Proofs.Selector.Extent

/-!
# Where edits are made

An edit replaces a value or the text of a key, or inserts a new element behind the last one of a
container. In a text that ends with a brace each of these changes the text before that brace only
if the part that it belongs to ends there: the value, the key, or the last element.
-/

namespace Typeahead.Acceptance

open Selector

/-! ## Positions of characters -/

theorem indexOf?_getD_le (text : Text) (c : Char) :
    (text.indexOf? c).getD text.trimRight.length ≤ text.length := by
  cases found : text.indexOf? c with
  | none => exact Text.trimRight_length_le text
  | some index =>
      have bound := List.findIdx?_eq_some_iff_findIdx_eq.mp found
      rw [Option.getD_some]
      omega

theorem exists_indexOf?_of_mem {text : Text} {c : Char} (member : c ∈ text) :
    ∃ index, text.indexOf? c = some index ∧ index < text.length := by
  cases found : text.indexOf? c with
  | none =>
      have absent := List.findIdx?_eq_none_iff.mp found c member
      simp at absent
  | some index =>
      have bound := List.findIdx?_eq_some_iff_findIdx_eq.mp found
      exact ⟨index, rfl, bound.1⟩

theorem indexOf?_of_isBlank {blanks : Text} (blank : blanks.isBlank) {c : Char}
    (visible : isBlank c = false) : blanks.indexOf? c = none := by
  rw [Text.indexOf?, List.findIdx?_eq_none_iff]
  intro d member
  have shown := Text.forall_isBlank blank d member
  rw [beq_eq_false_iff_ne]
  rintro rfl
  rw [shown] at visible
  contradiction

/-- The first bracket behind blanks. -/
theorem indexOf?_blanks_append {blanks rest : Text} (blank : blanks.isBlank) {c : Char}
    (visible : isBlank c = false) :
    (blanks ++ c :: rest).indexOf? c = some blanks.length := by
  have absent : blanks.findIdx? (· == c) = none := indexOf?_of_isBlank blank visible
  simp [Text.indexOf?, List.findIdx?_append, absent, List.findIdx?_cons]

/-! ## The places of new elements -/

/-- Where the last element of a container ends, or its opener if there is none. -/
def behindElements (container : Node) (delimiter : Delimiter) : Nat :=
  match (elementsOf container).getLast? with
  | none => container.start + ((container.raw.indexOf? delimiter.opener).getD 0) + 1
  | some last => min last.stop container.stop

/-- What stands in a container behind its last element. -/
def behindText (base : Text) (container : Node) (delimiter : Delimiter) : Text :=
  (base.take container.stop).drop (behindElements container delimiter)

theorem placeIn_position (base : Text) (container : Node) (delimiter : Delimiter) :
    (placeIn base container delimiter).position = behindElements container delimiter +
      ((behindText base container delimiter).indexOf? delimiter.closer).getD
        (behindText base container delimiter).trimRight.length := by
  unfold placeIn behindText behindElements
  cases (elementsOf container).getLast? <;> rfl

/-- A new element needs a comma if the last one has none behind it. -/
theorem placeIn_needsComma (base : Text) (container : Node) (delimiter : Delimiter) :
    (placeIn base container delimiter).needsComma =
      (elementsOf container).getLast?.any fun last => last.raw.trimRight.getLast? ≠ some ',' := by
  unfold placeIn
  cases (elementsOf container).getLast? <;> rfl

/-- A new element goes behind the last one, and in the container. -/
theorem placeIn_position_bounds (base : Text) (container : Node) (delimiter : Delimiter) :
    behindElements container delimiter ≤ (placeIn base container delimiter).position ∧
      (placeIn base container delimiter).position ≤
        max (behindElements container delimiter) container.stop := by
  have bound := indexOf?_getD_le (behindText base container delimiter) delimiter.closer
  have length : (behindText base container delimiter).length ≤
      container.stop - behindElements container delimiter := by
    simp only [behindText, List.length_drop, List.length_take]
    omega
  rw [placeIn_position]
  omega

/-! ## Texts that end with a brace -/

variable {text : Text} {least : Nat} {chunk : Chunk}

/-- A value lies before the brace at the end if and only if the span around it does. -/
theorem value_stop_lt_iff {raw : Text} {start : Nat} (shows : Shows text raw start)
    (braced : text.getLast? = some '}') :
    start + raw.leadingBlanks.length + raw.value.length < text.length ↔
      start + raw.length < text.length := by
  have bound := Text.value_length_le raw
  constructor
  · intro before
    by_cases present : raw = []
    · rw [present, List.length_nil] at bound ⊢
      rw [present] at before
      omega
    · have inside := shows.stop_le present
      by_cases reaches : text.length ≤ start + raw.length
      · have ends := (shows.getLast?_eq present reaches).trans braced
        have whole := congrArg List.length (Text.leadingBlanks_append_trimLeft raw)
        rw [List.length_append, ← Text.value_eq_trimLeft ends rfl (by decide)] at whole
        omega
      · omega
  · intro before
    omega

/-- The opener of a container is the first of its kind, behind the blanks. -/
theorem indexOf?_opener {delimiter : Delimiter} {body : Source}
    (found : chunk.body? = some (delimiter, body)) :
    chunk.raw.indexOf? delimiter.opener = some chunk.raw.leadingBlanks.length := by
  obtain ⟨_, _, _, _, afterOpener, raw, _⟩ := chunk.exists_of_body? found
  have opener := @indexOf?_blanks_append chunk.raw.leadingBlanks afterOpener
    (Text.isBlank_leadingBlanks _) delimiter.opener delimiter.isBlank_opener
  rwa [← raw] at opener

/-- A container without elements has room behind its opener. -/
theorem behindElements_of_elements_nil {delimiter : Delimiter} {body : Source}
    (found : chunk.body? = some (delimiter, body)) (empty : elementsOf chunk.node = []) :
    behindElements chunk.node delimiter = chunk.start + chunk.raw.leadingBlanks.length + 1 := by
  rw [behindElements, empty]
  simp only [List.getLast?_nil, Chunk.node_start, Chunk.node_raw]
  rw [indexOf?_opener found, Option.getD_some]

/-- The elements of a container end in it. -/
theorem behindElements_le_stop {delimiter : Delimiter} {body : Source}
    (found : chunk.body? = some (delimiter, body)) :
    behindElements chunk.node delimiter ≤ chunk.node.stop := by
  cases isLast : (elementsOf chunk.node).getLast? with
  | none =>
      obtain ⟨_, _, _, _, afterOpener, raw, _⟩ := chunk.exists_of_body? found
      have length := congrArg List.length raw
      rw [List.length_append, List.length_cons] at length
      rw [behindElements_of_elements_nil found (List.getLast?_eq_none_iff.mp isLast), Node.stop,
        Chunk.node_start, Chunk.node_raw]
      omega
  | some last =>
      rw [behindElements, isLast]
      exact Nat.min_le_right _ _

/-- Behind the opener of a container there is at least the brace at the end of the text. -/
theorem behindElements_of_empty (lies : chunk.Lies text least)
    (braced : text.getLast? = some '}') {delimiter : Delimiter} {body : Source}
    (found : chunk.body? = some (delimiter, body)) (empty : elementsOf chunk.node = []) :
    1 ≤ behindElements chunk.node delimiter ∧
      behindElements chunk.node delimiter ≤ chunk.node.stop ∧
        behindElements chunk.node delimiter < text.length := by
  obtain ⟨_, _, _, start, afterOpener, raw, _⟩ := chunk.exists_of_body? found
  have place := behindElements_of_elements_nil found empty
  have length := congrArg List.length raw
  rw [List.length_append, List.length_cons] at length
  have present : chunk.raw ≠ [] := by
    rw [raw]
    simp
  have inside := lies.shows.stop_le present
  have before : chunk.start + chunk.raw.leadingBlanks.length + 1 < text.length := by
    by_cases none : afterOpener = []
    · by_cases reaches : text.length ≤ chunk.start + chunk.raw.length
      · have ends := (lies.shows.getLast?_eq present reaches).trans braced
        rw [raw, none, List.getLast?_concat, Option.some.injEq] at ends
        cases delimiter <;> contradiction
      · rw [none, List.length_nil] at length
        omega
    · have positive := List.length_pos_iff.mpr none
      omega
  rw [place, Node.stop, Chunk.node_start, Chunk.node_raw]
  omega

/-- Where the last element of a container ends; nowhere if there is none. -/
def lastStop (container : Node) : Nat :=
  (elementsOf container).getLast?.elim 0 fun last => min last.stop container.stop

theorem raw_ne_nil_of_body? {delimiter : Delimiter} {body : Source}
    (found : chunk.body? = some (delimiter, body)) : chunk.raw ≠ [] := by
  obtain ⟨_, _, _, _, afterOpener, raw, _⟩ := chunk.exists_of_body? found
  rw [raw]
  simp

/-- The elements of a container start behind its start. -/
theorem start_lt_of_mem_elementsOf (lies : chunk.Lies text least) {element : Node}
    (member : element ∈ elementsOf chunk.node) : chunk.start < element.start := by
  cases looked : chunk.node with
  | span =>
      rw [looked] at member
      contradiction
  | object raw start cursor properties =>
      obtain ⟨body, found, _, rfl⟩ := chunk.exists_of_node_eq_object looked
      rw [looked, elementsOf, List.map_map] at member
      rcases List.mem_map.mp member with ⟨property, among, rfl⟩
      have inside := ((lies.body found).of_mem_properties among).2.least
      rw [Function.comp_apply, Chunk.node_start]
      omega
  | array raw start cursor values =>
      obtain ⟨_, body, found, _, _, rfl⟩ := chunk.exists_of_node_eq_array looked
      rw [looked, elementsOf] at member
      rcases List.mem_map.mp member with ⟨value, among, rfl⟩
      have inside := ((lies.body found).of_mem_values among).least
      rw [Chunk.node_start]
      omega

/-- Behind the elements of a container is behind its last element, or in the text. -/
theorem behindElements_iff (lies : chunk.Lies text least) (braced : text.getLast? = some '}')
    {delimiter : Delimiter} {body : Source} (found : chunk.body? = some (delimiter, body)) :
    1 ≤ behindElements chunk.node delimiter ∧
      (behindElements chunk.node delimiter < text.length ↔ lastStop chunk.node < text.length) := by
  cases last : (elementsOf chunk.node).getLast? with
  | none =>
      obtain ⟨positive, _, before⟩ := behindElements_of_empty lies braced found
        (List.getLast?_eq_none_iff.mp last)
      refine ⟨positive, iff_of_true before ?_⟩
      rw [lastStop, last, Option.elim_none]
      omega
  | some element =>
      have within := start_lt_of_mem_elementsOf lies (List.mem_of_getLast? last)
      have present := List.length_pos_iff.mpr (raw_ne_nil_of_body? found)
      have place : behindElements chunk.node delimiter = min element.stop chunk.node.stop := by
        rw [behindElements, last]
      rw [place, lastStop, last, Option.elim_some]
      refine ⟨?_, Iff.rfl⟩
      simp only [Node.stop, Chunk.node_start, Chunk.node_raw]
      omega

/-- A new property goes before the brace at the end if there is room behind the elements. -/
theorem placeIn_brace_lt_iff (container : Node) (braced : text.getLast? = some '}') :
    (placeIn text container .brace).position < text.length ↔
      behindElements container .brace < text.length := by
  obtain ⟨low, high⟩ := placeIn_position_bounds text container .brace
  constructor
  · omega
  · intro before
    by_cases reaches : text.length ≤ container.stop
    · have rest : behindText text container .brace =
          text.drop (behindElements container .brace) := by
        rw [behindText, List.take_of_length_le reaches]
      have ends : '}' ∈ behindText text container .brace := by
        apply List.mem_of_getLast?
        rw [rest, List.getLast?_drop, if_neg (by omega), braced]
      obtain ⟨index, found, bound⟩ := exists_indexOf?_of_mem ends
      rw [rest, List.length_drop] at bound
      rw [placeIn_position, Delimiter.closer, found, Option.getD_some]
      omega
    · omega

/-- A new value goes before the brace at the end if there is room behind the elements. -/
theorem placeIn_bracket_lt_iff (lies : chunk.Lies text least)
    (braced : text.getLast? = some '}') {raw : Text} {start : Nat} {cursor : Option Nat}
    {values : List Node} (looked : chunk.node = .array raw start cursor values) :
    (placeIn text chunk.node .bracket).position < text.length ↔
      behindElements chunk.node .bracket < text.length := by
  obtain ⟨low, high⟩ := placeIn_position_bounds text chunk.node .bracket
  constructor
  · omega
  · intro before
    by_cases reaches : text.length ≤ chunk.node.stop
    · have covers : text.length ≤ chunk.start + chunk.raw.length := by
        rw [Node.stop, Chunk.node_start, Chunk.node_raw] at reaches
        exact reaches
      obtain ⟨last, isLast, stops⟩ := lies.exists_last_value looked braced covers
      have place : behindElements chunk.node .bracket = min last.stop chunk.node.stop := by
        rw [behindElements, looked, elementsOf, isLast]
      rw [stops] at place
      omega
    · omega

end Typeahead.Acceptance
