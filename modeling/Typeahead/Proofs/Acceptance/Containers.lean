import Typeahead.Proofs.Acceptance.Places
import Typeahead.Proofs.Selector.Cursor

/-!
# Adding an element to a written container

Objects and arrays are written alike: pieces with commas between them stand between two brackets.
A new element is put in front of the closer. It gets the comma that the last piece lacks, so that
the text is again that of a container, with one more piece.
-/

namespace Typeahead.Acceptance

open Selector

/-! ## Containers -/

/-- The text of an object or an array in its parts. -/
structure Container where
  delimiter : Delimiter
  before : Text
  pieces : List Text
  rest? : Option Text
  after : Text

namespace Container

variable (container : Container)

/-- What stands between the brackets. -/
def body : Text :=
  joined container.pieces container.rest?

/-- The blanks behind the last comma, or all of an empty body. -/
def rest : Text :=
  container.rest?.getD []

/-- A container with another body. -/
def textAround (body : Text) : Text :=
  container.before ++ container.delimiter.opener :: body ++
    container.delimiter.closer :: container.after

/-- The text of a container. -/
def text : Text :=
  container.textAround container.body

/-- A container with one more piece, and no comma behind it. -/
def add (piece : Text) : Container :=
  { container with pieces := container.pieces ++ [piece], rest? := none }

/-- The place in front of the closer, counted from the start of the container. -/
def place : Nat :=
  container.before.length + 1 + container.body.length

/-- A node that is read for a container at a place of a text. Its last element ends where the last
piece ends, the comma included. -/
structure Shows (start : Nat) (node : Node) : Prop where
  blankBefore : container.before.isBlank
  blankRest : container.rest.isBlank
  raw : ∃ comma, node.raw = container.text ++ commaText comma
  starts : node.start = start
  elements : container.pieces = [] ∧ elementsOf node = [] ∨
    container.pieces ≠ [] ∧ ∃ last, (elementsOf node).getLast? = some last ∧
      last.stop + container.rest.length = start + container.place ∧
        (last.raw.trimRight.getLast? = some ',' ↔ container.rest?.isSome)

end Container

/-! ## Bodies -/

/-- What follows the last piece. -/
theorem continued_following_nil (rest? : Option Text) :
    continued (following [] rest?) = commaText rest?.isSome ++ rest?.getD [] := by
  cases rest? <;> rfl

/-- A body ends with the blanks behind its last comma. -/
theorem exists_joined_eq (pieces : List Text) (rest? : Option Text) :
    ∃ front, joined pieces rest? = front ++ rest?.getD [] := by
  cases rest? with
  | none => exact ⟨joined pieces none, (List.append_nil _).symm⟩
  | some rest => exact ⟨terminated pieces, joined_some pieces rest⟩

/-- Without a comma behind the last piece it is all that is missing. -/
theorem terminated_of_ne_nil {pieces : List Text} (present : pieces ≠ []) :
    terminated pieces = joined pieces none ++ [','] := by
  obtain ⟨front, last, rfl⟩ := (List.eq_nil_or_concat pieces).resolve_left present
  rw [List.concat_eq_append, terminated_append, joined_append_cons]
  simp [terminated, following, continued]

namespace Container

variable {container : Container} {start : Nat} {node : Node} {front back base : Text}

theorem text_add (container : Container) (piece : Text) :
    (container.add piece).text =
      container.textAround (terminated container.pieces ++ piece) := by
  rw [text, body, add, joined_append_cons, continued_following_nil]
  simp [textAround, commaText]

theorem length_textAround (body : Text) :
    (container.textAround body).length =
      container.before.length + 1 + body.length + 1 + container.after.length := by
  simp only [textAround, List.length_append, List.length_cons]
  omega

/-! ## The place of a new element -/

/-- Only the blanks behind the last comma stand between the elements and the closer. -/
theorem Shows.behindElements (shows : container.Shows start node) :
    behindElements node container.delimiter + container.rest.length = start + container.place := by
  obtain ⟨comma, raw⟩ := shows.raw
  rcases shows.elements with ⟨none, empty⟩ | ⟨_, last, isLast, stops, _⟩
  · have opener : node.raw.indexOf? container.delimiter.opener = some container.before.length := by
      rw [raw, text, textAround]
      simp only [List.append_assoc, List.cons_append]
      exact indexOf?_blanks_append shows.blankBefore (Delimiter.isBlank_opener _)
    have same : container.body = container.rest := by
      rw [body, none]
      rfl
    rw [Acceptance.behindElements, empty]
    simp only [List.getLast?_nil]
    rw [opener, Option.getD_some, shows.starts, place, same]
    omega
  · have stop : start + container.place ≤ node.stop := by
      rw [Node.stop, raw, shows.starts, List.length_append, text, length_textAround, place]
      omega
    rw [Acceptance.behindElements, isLast]
    simp only
    omega

/-- A new element is put in front of the closer. -/
theorem Shows.position (shows : container.Shows start node) (starts : front.length = start)
    (whole : base = front ++ container.text ++ back) :
    (placeIn base node container.delimiter).position = start + container.place := by
  obtain ⟨done, split⟩ := exists_joined_eq container.pieces container.rest?
  change container.body = done ++ container.rest at split
  obtain ⟨comma, raw⟩ := shows.raw
  have place : start + container.place =
      (front ++ (container.before ++ container.delimiter.opener :: done)).length +
        container.rest.length := by
    rw [Container.place, split, ← starts]
    simp only [List.length_append, List.length_cons]
    omega
  have ends := shows.behindElements
  have begins : Acceptance.behindElements node container.delimiter =
      (front ++ (container.before ++ container.delimiter.opener :: done)).length := by
    omega
  have around : base = (front ++ (container.before ++ container.delimiter.opener :: done)) ++
      (container.rest ++ container.delimiter.closer :: (container.after ++ back)) := by
    rw [whole, text, textAround, split]
    simp only [List.append_assoc, List.cons_append]
  obtain ⟨more, length⟩ : ∃ more, node.stop =
      (front ++ (container.before ++ container.delimiter.opener :: done)).length +
        (container.rest.length + (more + 1)) := by
    refine ⟨container.after.length + (commaText comma).length, ?_⟩
    rw [Node.stop, raw, shows.starts, List.length_append, text, length_textAround]
    rw [Container.place] at place
    omega
  have rest : behindText base node container.delimiter =
      container.rest ++ container.delimiter.closer :: (container.after ++ back).take more := by
    rw [behindText, begins, around, List.drop_take, List.drop_left, length,
      Nat.add_sub_cancel_left, List.take_length_add_append, List.take_succ_cons]
  rw [placeIn_position, rest, indexOf?_blanks_append shows.blankRest (Delimiter.isBlank_closer _),
    Option.getD_some, ends]

/-- A new element needs a comma if there is a last piece without one. -/
theorem Shows.needsComma_iff (shows : container.Shows start node) :
    (placeIn base node container.delimiter).needsComma = true ↔
      container.pieces ≠ [] ∧ container.rest? = none := by
  rw [placeIn_needsComma]
  rcases shows.elements with ⟨none, empty⟩ | ⟨present, last, isLast, _, comma⟩
  · simp [none, empty]
  · rw [isLast, Option.any_some, decide_eq_true_eq, ne_eq, comma, Option.not_isSome_iff_eq_none]
    exact ⟨fun missing => ⟨present, missing⟩, And.right⟩

/-- With what sets a new element off, a comma stands behind each piece, and then blanks. -/
theorem Shows.exists_blanks (shows : container.Shows start node) (base : Text) :
    ∃ blanks : Text, blanks.isBlank ∧ terminated container.pieces ++ blanks =
      container.body ++ separator base (placeIn base node container.delimiter) := by
  by_cases needs : (placeIn base node container.delimiter).needsComma = true
  · obtain ⟨present, none⟩ := shows.needsComma_iff.mp needs
    refine ⟨[' '], rfl, ?_⟩
    rw [separator, if_pos needs, terminated_of_ne_nil present, body, none, List.append_assoc]
    rfl
  · have same : container.body = terminated container.pieces ++ container.rest := by
      by_cases empty : container.pieces = []
      · rw [body, empty]
        rfl
      · obtain ⟨rest, found⟩ := Option.ne_none_iff_exists'.mp
          (not_and.mp (mt shows.needsComma_iff.mpr needs) empty)
        rw [body, Container.rest, found, joined_some, Option.getD_some]
    refine ⟨container.rest ++ separator base (placeIn base node container.delimiter), ?_, ?_⟩
    · rw [Text.isBlank_append, shows.blankRest, separator, if_neg needs]
      split <;> rfl
    · rw [same, List.append_assoc]

/-! ## Inserting the element -/

/-- Inserting an element into a container adds a piece to it, and changes nothing around it. The
caret goes to its offset in the new piece. -/
theorem Shows.exists_insertElement (shows : container.Shows start node)
    (starts : front.length = start) (whole : base = front ++ container.text ++ back)
    (element : Expansion) :
    ∃ blanks : Text, blanks.isBlank ∧
      (insertElement base node container.delimiter element).apply base =
        front ++ (container.add (blanks ++ element.text)).text ++ back ∧
      (insertElement base node container.delimiter element).caret =
        start + (container.before.length + 1 + (terminated container.pieces).length +
          (blanks.length + element.offset)) := by
  have position := shows.position starts whole
  obtain ⟨blanks, blank, set⟩ := shows.exists_blanks base
  refine ⟨blanks, blank, ?_, ?_⟩
  · have split : base = (front ++ (container.before ++ container.delimiter.opener ::
        container.body)) ++ [] ++ (container.delimiter.closer :: container.after ++ back) := by
      rw [whole, text, textAround]
      simp only [List.append_assoc, List.cons_append, List.nil_append]
    have begins : (insertElement base node container.delimiter element).start =
        (front ++ (container.before ++ container.delimiter.opener :: container.body)).length := by
      rw [insertElement, position, Container.place, ← starts]
      simp only [List.length_append, List.length_cons]
      omega
    have added := Edit.apply_append (insertElement base node container.delimiter element) _ []
      (container.delimiter.closer :: container.after ++ back) begins rfl
    rw [← split] at added
    rw [added, text_add, ← List.append_assoc (terminated container.pieces), set, textAround,
      insertElement]
    simp only [List.append_assoc, List.cons_append]
  · have length := congrArg List.length set
    simp only [List.length_append] at length
    rw [insertElement]
    simp only
    rw [position, Container.place]
    omega

end Container

/-! ## Written objects and arrays -/

/-- A written value ends with no comma of its own. -/
theorem getLast?_trimRight_text_ne_comma {written : Written} (wellFormed : written.WellFormed) :
    written.text.trimRight.getLast? ≠ some ',' := by
  have closed (front after : Text) (blank : after.isBlank) (delimiter : Delimiter) :
      (Text.trimRight (front ++ delimiter.closer :: after)).getLast? ≠ some ',' := by
    rw [List.append_cons, Text.trimRight_append_of_isBlank blank,
      Text.trimRight_concat front (Delimiter.isBlank_closer delimiter), List.getLast?_concat]
    cases delimiter <;> decide
  cases wellFormed with
  | @atom before text after blankBefore blankAfter form =>
      rw [Written.text, Text.trimRight_append_of_isBlank blankAfter]
      rcases form with rfl | atom
      · have trimmed := Text.trimRight_append_of_isBlank blankBefore []
        rw [List.append_nil, ← List.nil_append before, trimmed]
        exact (Option.some_ne_none ',').symm
      · obtain ⟨c, last⟩ : ∃ c, text.getLast? = some c := by
          obtain ⟨c, rest, rfl, _⟩ := atom.begins
          exact ⟨_, List.getLast?_cons⟩
        have ends : (before ++ text).getLast? = some c := by
          rw [List.getLast?_append, last, Option.some_or]
        have visible := atom.isTrimmed.ends c last
        rw [Text.trimRight_of_getLast?, ends, ne_eq, Option.some.injEq]
        · exact visible.2
        · intro d same
          rw [ends, Option.some.injEq] at same
          rw [← same]
          exact visible.1
  | @object before after properties rest? _ blank _ _ _ =>
      exact closed (before ++ '{' :: joined (propertyTexts properties) rest?) after blank .brace
  | @array before after values rest? _ blank _ _ _ =>
      exact closed (before ++ '[' :: joined (valueTexts values) rest?) after blank .bracket

/-- What is read for a written value ends with a comma if one is written behind it. -/
theorem getLast?_trimRight_raw_iff {written : Written} (wellFormed : written.WellFormed)
    (comma : Bool) :
    (Text.trimRight (written.text ++ commaText comma)).getLast? = some ',' ↔ comma = true := by
  cases comma with
  | false =>
      have noComma := getLast?_trimRight_text_ne_comma wellFormed
      rw [commaText, if_neg Bool.false_ne_true, List.append_nil]
      exact iff_of_false noComma Bool.false_ne_true
  | true =>
      rw [commaText, if_pos rfl, Text.trimRight_concat _ rfl, List.getLast?_concat]
      exact iff_of_true rfl rfl

/-- The text of a written object in its parts. -/
def objectParts (before : Text) (properties : List (Heading × Written)) (rest? : Option Text)
    (after : Text) : Container :=
  ⟨.brace, before, propertyTexts properties, rest?, after⟩

/-- The text of a written array in its parts. -/
def arrayParts (before : Text) (values : List Written) (rest? : Option Text) (after : Text) :
    Container :=
  ⟨.bracket, before, valueTexts values, rest?, after⟩

section

variable {before after : Text} {rest? : Option Text}

theorem blank_getD_rest (blank : ∀ rest ∈ rest?, Text.isBlank rest) :
    Text.isBlank (rest?.getD []) := by
  cases rest? with
  | none => rfl
  | some rest => exact blank rest rfl

/-- The node of a written object whose last key has its colon shows the parts of the object. -/
theorem shows_object {properties : List (Heading × Written)}
    (wellFormed : (Written.object before properties rest? after).WellFormed)
    (colon : ∀ property ∈ properties.getLast?, property.1.colon = true) (start : Nat)
    (caret : Caret) (comma : Bool) :
    (objectParts before properties rest? after).Shows start
      ((Written.object before properties rest? after).node start caret comma) := by
  cases wellFormed with
  | object blankBefore blankAfter blank headed values =>
      refine ⟨blankBefore, blank_getD_rest blank, ⟨comma, rfl⟩, rfl, ?_⟩
      rcases List.eq_nil_or_concat properties with rfl | ⟨front, ⟨heading, value⟩, rfl⟩
      · exact .inl ⟨rfl, rfl⟩
      · rw [List.concat_eq_append] at headed values colon ⊢
        have hasColon := colon (heading, value) List.getLast?_concat
        obtain ⟨last, isLast⟩ := @getLast?_headedNodes rest? (start + (before.length + 1))
          (bodyCaret caret before
            (joined (propertyTexts (front ++ [(heading, value)])) rest?)) heading value front
          headed hasColon
        refine .inr ⟨?_, _, isLast, ?_, ?_⟩
        · simp [objectParts, propertyTexts_eq_map]
        · rw [Node.stop, Written.node_start, Written.node_raw, Container.place, Container.body,
            objectParts]
          simp only [propertyTexts_append, propertyTexts, joined_append_cons,
            continued_following_nil, List.length_append, Container.rest, propertyOffset]
          omega
        · rw [Written.node_raw]
          exact getLast?_trimRight_raw_iff (values (heading, value) (by simp)) _

/-- The node of a written array shows the parts of the array. -/
theorem shows_array {values : List Written}
    (wellFormed : (Written.array before values rest? after).WellFormed) (start : Nat)
    (caret : Caret) (comma : Bool) :
    (arrayParts before values rest? after).Shows start
      ((Written.array before values rest? after).node start caret comma) := by
  cases wellFormed with
  | array blankBefore blankAfter blank visible elements =>
      refine ⟨blankBefore, blank_getD_rest blank, ⟨comma, rfl⟩, rfl, ?_⟩
      rcases List.eq_nil_or_concat values with rfl | ⟨front, value, rfl⟩
      · exact .inl ⟨rfl, rfl⟩
      · rw [List.concat_eq_append] at elements ⊢
        obtain ⟨last, isLast⟩ := @getLast?_writtenNodes rest? (start + (before.length + 1))
          (bodyCaret caret before (joined (valueTexts (front ++ [value])) rest?)) front value
        refine .inr ⟨?_, _, isLast, ?_, ?_⟩
        · simp [arrayParts, valueTexts_eq_map]
        · rw [Node.stop, Written.node_start, Written.node_raw, Container.place, Container.body,
            arrayParts]
          simp only [valueTexts_append, valueTexts, joined_append_cons, continued_following_nil,
            List.length_append, Container.rest, valueOffset]
          omega
        · rw [Written.node_raw]
          exact getLast?_trimRight_raw_iff (elements value (by simp)) _

end

end Typeahead.Acceptance
