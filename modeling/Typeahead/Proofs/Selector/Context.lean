import Typeahead.Proofs.Selector.RoundTrip

/-!
# Contexts of an element

A layer is a container with a hole in place of one of its elements. Layers around each other form
the context of an element in a tree, the outermost layer first. What stands before and behind the
hole does not depend on what fills it, and a scan passes it as it would pass a whole tree. If the
value in the hole is taken from the source that begins there, then the whole is read as it is
described.
-/

namespace Typeahead.Selector

open Scan

/-! ## Layers -/

/-- A container with a hole in place of one of its elements. -/
inductive Layer where
  /-- The value of a property is missing. -/
  | property (before : Text) (earlier : List (Heading × Written)) (heading : Heading)
      (later : List (Heading × Written)) (rest? : Option Text) (after : Text)
  /-- A value of an array is missing. -/
  | value (before : Text) (earlier later : List Written) (rest? : Option Text) (after : Text)

/-- Pieces with a comma behind each. -/
def terminated : List Text → Text
  | [] => []
  | piece :: more => piece ++ ',' :: terminated more

namespace Layer

/-- Fill the hole. -/
def plug : Layer → Written → Written
  | property before earlier heading later rest? after, written =>
      .object before (earlier ++ (heading, written) :: later) rest? after
  | value before earlier later rest? after, written =>
      .array before (earlier ++ written :: later) rest? after

/-- The brackets of the container. -/
def delimiter : Layer → Delimiter
  | property .. => .brace
  | value .. => .bracket

/-- The blanks before the container. -/
def before : Layer → Text
  | property before .. | value before .. => before

/-- The blanks behind the container. -/
def after : Layer → Text
  | property _ _ _ _ _ after | value _ _ _ _ after => after

/-- What stands in the body before the hole. -/
def opening : Layer → Text
  | property _ earlier heading _ _ _ => terminated (propertyTexts earlier) ++ heading.text
  | value _ earlier _ _ _ => terminated (valueTexts earlier)

/-- What follows the element in the hole. -/
def more? : Layer → Option Text
  | property _ _ _ later rest? _ => following (propertyTexts later) rest?
  | value _ _ later rest? _ => following (valueTexts later) rest?

/-- The body around a text. -/
def body (layer : Layer) (text : Text) : Text :=
  layer.opening ++ text ++ continued layer.more?

/-- All that stands before the hole. -/
def leading (layer : Layer) : Text :=
  layer.before ++ layer.delimiter.opener :: layer.opening

/-- All that stands behind the hole. -/
def trailing (layer : Layer) : Text :=
  continued layer.more? ++ layer.delimiter.closer :: layer.after

/-- The outline of the container around the outline of an element. -/
def outlineAround : Layer → Outline → Outline
  | property _ earlier heading later _ _, outline =>
      .object (headedOutlines earlier ++ (some heading.name, outline) :: headedOutlines later)
  | value _ earlier later _ _, outline =>
      .array (writtenOutlines earlier ++ outline :: writtenOutlines later)

/-- The element in the hole is the last one, and no comma follows it. -/
def IsLast (layer : Layer) : Prop :=
  layer.more? = none

end Layer

theorem joined_append_cons (earlier : List Text) (piece : Text) (later : List Text)
    (rest? : Option Text) :
    joined (earlier ++ piece :: later) rest? =
      terminated earlier ++ (piece ++ continued (following later rest?)) := by
  induction earlier with
  | nil => exact joined_cons piece later rest?
  | cons first more induct =>
      have present : (more ++ piece :: later).isEmpty = false := by
        cases more <;> rfl
      rw [List.cons_append, joined_cons, following, present, Bool.false_and,
        if_neg Bool.false_ne_true, continued, induct, terminated, List.append_assoc,
        List.cons_append]

theorem terminated_append (earlier later : List Text) :
    terminated (earlier ++ later) = terminated earlier ++ terminated later := by
  induction earlier with
  | nil => rfl
  | cons first more induct =>
      rw [List.cons_append, terminated, induct, terminated, List.append_assoc, List.cons_append]

theorem joined_some (pieces : List Text) (rest : Text) :
    joined pieces (some rest) = terminated pieces ++ rest := by
  induction pieces with
  | nil => rfl
  | cons piece more induct =>
      rw [joined_cons, following, Option.isNone_some, Bool.and_false, if_neg Bool.false_ne_true,
        continued, induct, terminated, List.append_assoc, List.cons_append]

theorem propertyTexts_append (earlier later : List (Heading × Written)) :
    propertyTexts (earlier ++ later) = propertyTexts earlier ++ propertyTexts later := by
  simp only [propertyTexts_eq_map, List.map_append]

theorem valueTexts_append (earlier later : List Written) :
    valueTexts (earlier ++ later) = valueTexts earlier ++ valueTexts later := by
  simp only [valueTexts_eq_map, List.map_append]

namespace Layer

/-- The text of a filled container, with its brackets. -/
theorem text_plug_eq_body (layer : Layer) (written : Written) :
    (layer.plug written).text =
      layer.before ++ layer.delimiter.opener :: layer.body written.text ++
        layer.delimiter.closer :: layer.after := by
  cases layer with
  | property before earlier heading later rest? after =>
      rw [plug, Written.text, propertyTexts_append, propertyTexts, joined_append_cons]
      simp [body, opening, more?, Layer.before, Layer.after, delimiter, Delimiter.opener,
        Delimiter.closer]
  | value before earlier later rest? after =>
      rw [plug, Written.text, valueTexts_append, valueTexts, joined_append_cons]
      simp [body, opening, more?, Layer.before, Layer.after, delimiter, Delimiter.opener,
        Delimiter.closer]

/-- The text of a filled container, cut at the ends of the hole. -/
theorem text_plug (layer : Layer) (written : Written) :
    (layer.plug written).text = layer.leading ++ written.text ++ layer.trailing := by
  rw [text_plug_eq_body, leading, trailing, body]
  simp

theorem outline_plug (layer : Layer) (written : Written) :
    (layer.plug written).outline = layer.outlineAround written.outline := by
  cases layer <;>
    simp [plug, Written.outline, outlineAround, headedOutlines_eq_map, writtenOutlines_eq_map]

theorem frame?_plug (layer : Layer) (written : Written) :
    (layer.plug written).frame? = some ⟨layer.delimiter, true⟩ := by
  cases layer <;> rfl

/-- A layer that makes a well-formed tree of a well-formed element. -/
inductive WellFormed : Layer → Prop
  | property {before after : Text} {earlier later : List (Heading × Written)} {heading : Heading}
      {rest? : Option Text} :
      before.isBlank → after.isBlank → (∀ rest ∈ rest?, Text.isBlank rest) →
        (∀ written, Headed (earlier ++ (heading, written) :: later) rest?) →
        (∀ property ∈ earlier, property.2.WellFormed) →
        (∀ property ∈ later, property.2.WellFormed) →
          WellFormed (.property before earlier heading later rest? after)
  | value {before after : Text} {earlier later : List Written} {rest? : Option Text} :
      before.isBlank → after.isBlank → (∀ rest ∈ rest?, Text.isBlank rest) →
        (∀ written ∈ earlier, written.text.isBlank = false ∧ written.WellFormed) →
        (∀ written ∈ later, written.text.isBlank = false ∧ written.WellFormed) →
          WellFormed (.value before earlier later rest? after)

end Layer

/-! ## Layers of well-formed trees -/

section

variable {earlier later : List (Heading × Written)} {heading : Heading} {value : Written}
  {rest? : Option Text}

theorem Headed.of_append (headed : Headed (earlier ++ later) rest?) : Headed later rest? := by
  induction earlier with
  | nil => exact headed
  | cons property more induct => exact induct headed.2.2

/-- Only the last key may lack its colon. -/
theorem Headed.colon_of_append {property : Heading × Written} {more : List (Heading × Written)}
    (headed : Headed (property :: (more ++ (heading, value) :: later)) rest?) :
    property.1.colon = true := by
  cases absent : property.1.colon with
  | true => rfl
  | false =>
      have empty := (headed.2.1 absent).2.1
      rw [List.append_eq_nil_iff] at empty
      exact absurd empty.2 (List.cons_ne_nil _ _)

theorem Headed.colon_of_visible (headed : Headed (earlier ++ (heading, value) :: later) rest?)
    (visible : value.text.isBlank = false) : heading.colon = true := by
  cases colon : heading.colon with
  | true => rfl
  | false =>
      obtain ⟨rfl, _⟩ := headed.of_append.2.1 colon
      contradiction

/-- In place of any key another one with a colon may stand, with any value. -/
theorem Headed.respell (headed : Headed (earlier ++ (heading, value) :: later) rest?)
    {other : Heading} (wellFormed : other.WellFormed) (colon : other.colon = true)
    (written : Written) : Headed (earlier ++ (other, written) :: later) rest? := by
  induction earlier with
  | nil =>
      refine ⟨wellFormed, fun absent => ?_, headed.2.2⟩
      rw [colon] at absent
      contradiction
  | cons property more induct =>
      refine ⟨headed.1, fun absent => ?_, induct headed.2.2⟩
      rw [headed.colon_of_append] at absent
      contradiction

/-- The last key of some properties has its colon, so that others can follow. -/
def EndsWithColon (properties : List (Heading × Written)) : Prop :=
  ∀ property ∈ properties.getLast?, property.1.colon = true

/-- A comma stands only behind a key with its colon. -/
theorem Headed.endsWithColon (headed : Headed earlier rest?)
    (room : earlier = [] ∨ rest?.isSome) : EndsWithColon earlier := by
  intro property isLast
  rcases List.getLast?_eq_some_iff.mp isLast with ⟨front, rfl⟩
  cases colon : property.1.colon with
  | true => rfl
  | false =>
      have noComma := (headed.of_append.2.1 colon).2.2
      rw [noComma] at room
      simp at room

/-- Behind properties that end with a colon others may follow. -/
theorem Headed.append {other? : Option Text} (headed : Headed earlier other?)
    (colon : EndsWithColon earlier) (others : Headed later rest?) :
    Headed (earlier ++ later) rest? := by
  induction earlier with
  | nil => exact others
  | cons property more induct =>
      refine ⟨headed.1, fun absent => ?_, induct headed.2.2 fun last isLast => colon last ?_⟩
      · -- A key without a colon is the last one.
        obtain ⟨_, rfl, _⟩ := headed.2.1 absent
        exact absurd ((colon property rfl).symm.trans absent) Bool.noConfusion
      · rw [Option.mem_def] at isLast ⊢
        rw [List.getLast?_cons, isLast, Option.getD_some]

/-- Behind a colon any value may stand. -/
theorem Headed.replace (headed : Headed (earlier ++ (heading, value) :: later) rest?)
    (colon : heading.colon = true) (other : Written) :
    Headed (earlier ++ (heading, other) :: later) rest? :=
  headed.respell headed.of_append.1 colon other

end

namespace Layer

/-- The layers around an element of a well-formed tree are well-formed, and so is the element. -/
theorem wellFormed_of_plug {layer : Layer} {written : Written}
    (wellFormed : (layer.plug written).WellFormed) (visible : written.text.isBlank = false) :
    layer.WellFormed ∧ written.WellFormed := by
  cases layer with
  | property before earlier heading later rest? after =>
      cases wellFormed with
      | object blankBefore blankAfter blank headed values =>
          constructor
          · refine .property blankBefore blankAfter blank
              (headed.replace (headed.colon_of_visible visible)) ?_ ?_
            · exact fun property member => values property (List.mem_append_left _ member)
            · exact fun property member => values property
                (List.mem_append_right _ (List.mem_cons_of_mem _ member))
          · exact values (heading, written) (by simp)
  | value before earlier later rest? after =>
      cases wellFormed with
      | array blankBefore blankAfter blank visible values =>
          constructor
          · refine .value blankBefore blankAfter blank ?_ ?_
            · intro other member
              have within := List.mem_append_left (written :: later) member
              exact ⟨visible other within, values other within⟩
            · intro other member
              have within := List.mem_append_right earlier (List.mem_cons_of_mem written member)
              exact ⟨visible other within, values other within⟩
          · exact values written (by simp)

/-- A well-formed layer around a well-formed element that can be seen. -/
theorem WellFormed.plug {layer : Layer} (wellFormed : layer.WellFormed) {written : Written}
    (element : written.WellFormed) (visible : written.text.isBlank = false) :
    (layer.plug written).WellFormed := by
  cases wellFormed with
  | property blankBefore blankAfter blank headed earlier later =>
      refine .object blankBefore blankAfter blank (headed written) ?_
      intro property member
      rcases List.mem_append.mp member with front | back
      · exact earlier property front
      · rcases List.mem_cons.mp back with rfl | behind
        · exact element
        · exact later property behind
  | @value before after front back rest? blankBefore blankAfter blank earlier later =>
      have all : ∀ value ∈ front ++ written :: back,
          value.text.isBlank = false ∧ value.WellFormed := by
        intro value member
        rcases List.mem_append.mp member with ahead | others
        · exact earlier value ahead
        · rcases List.mem_cons.mp others with rfl | behind
          · exact ⟨visible, element⟩
          · exact later value behind
      exact .array blankBefore blankAfter blank (fun value member => (all value member).1)
        (fun value member => (all value member).2)

variable {layer : Layer}

theorem WellFormed.blank_before (wellFormed : layer.WellFormed) : layer.before.isBlank := by
  cases wellFormed <;> assumption

theorem WellFormed.blank_after (wellFormed : layer.WellFormed) : layer.after.isBlank := by
  cases wellFormed <;> assumption

theorem delimiter_eq (layer : Layer) :
    layer.delimiter = .brace ∨ layer.delimiter = .bracket := by
  cases layer
  · exact .inl rfl
  · exact .inr rfl

theorem delimiter_isQuote (layer : Layer) : layer.delimiter.isQuote = false := by
  cases layer <;> rfl

/-! ## Scanning around the hole -/

theorem neutral_terminated {recovery : Option Int} {pieces : List Text}
    (neutral : ∀ piece ∈ pieces, ∀ position, Neutral recovery position piece) (position : Nat) :
    Neutral recovery position (terminated pieces) := by
  induction pieces generalizing position with
  | nil => exact neutral_nil recovery position
  | cons piece more induct =>
      have here := neutral piece List.mem_cons_self position
      have later := induct fun other member => neutral other (List.mem_cons_of_mem piece member)
      exact here.append ((neutral_singleton recovery _ rfl rfl).append (later _))

theorem mem_terminated {piece : Text} {pieces : List Text} (member : piece ∈ pieces) :
    ∀ c ∈ piece, c ∈ terminated pieces := by
  intro c within
  induction pieces with
  | nil => contradiction
  | cons first more induct =>
      rw [terminated, List.mem_append]
      rcases List.mem_cons.mp member with rfl | later
      · exact .inl within
      · exact .inr (List.mem_cons_of_mem ',' (induct later))

theorem mem_continued_following {piece : Text} {more : List Text} (member : piece ∈ more)
    (rest? : Option Text) : ∀ c ∈ piece, c ∈ continued (following more rest?) := by
  intro c within
  have present : more.isEmpty = false := by
    cases more with
    | nil => contradiction
    | cons => rfl
  rw [following, present, Bool.false_and, if_neg Bool.false_ne_true]
  exact List.mem_cons_of_mem ',' (mem_joined member rest? c within)

theorem neutral_property {property : Heading × Written} (heading : property.1.WellFormed)
    (value : property.2.WellFormed) {recovery : Option Int}
    (undisturbed : Undisturbed recovery (property.1.text ++ property.2.text)) (position : Nat) :
    Neutral recovery position (property.1.text ++ property.2.text) :=
  (heading.neutral undisturbed.left position).append (value.reads undisturbed.right _).1

theorem neutral_continued {recovery : Option Int} {more : List Text} {rest? : Option Text}
    (blank : ∀ rest ∈ rest?, Text.isBlank rest)
    (neutral : ∀ piece ∈ more, ∀ position, Neutral recovery position piece) (position : Nat) :
    Neutral recovery position (continued (following more rest?)) := by
  rw [following]
  split
  · exact neutral_nil recovery position
  · exact (neutral_singleton recovery position rfl rfl).append (neutral_joined blank neutral _)

/-- A scan comes out of the elements before the hole as it went in. -/
theorem WellFormed.neutral_opening (wellFormed : layer.WellFormed) {recovery : Option Int}
    (undisturbed : Undisturbed recovery layer.opening) (position : Nat) :
    Neutral recovery position layer.opening := by
  cases wellFormed with
  | @property before after earlier later heading rest? _ _ _ headed values _ =>
      have headings := (headed (.atom [] [] [])).wellFormed
      refine Neutral.append (neutral_terminated ?_ position) ?_
      · intro piece member place
        have calm := undisturbed.left.mono (mem_terminated member)
        rw [propertyTexts_eq_map] at member
        rcases List.mem_map.mp member with ⟨property, within, rfl⟩
        have heading := headings property (List.mem_append_left _ within)
        exact neutral_property heading (values property within) calm place
      · exact (headings _ (List.mem_append_right _ List.mem_cons_self)).neutral undisturbed.right _
  | @value before after earlier later rest? _ _ _ values _ =>
      refine neutral_terminated ?_ position
      intro piece member place
      have calm := undisturbed.mono (mem_terminated member)
      rw [valueTexts_eq_map] at member
      rcases List.mem_map.mp member with ⟨value, within, rfl⟩
      exact ((values value within).2.reads calm place).1

/-- A scan comes out of the elements behind the hole as it went in. -/
theorem WellFormed.neutral_more (wellFormed : layer.WellFormed) {recovery : Option Int}
    (undisturbed : Undisturbed recovery (continued layer.more?)) (position : Nat) :
    Neutral recovery position (continued layer.more?) := by
  cases wellFormed with
  | @property before after earlier later heading rest? _ _ blank headed _ values =>
      refine neutral_continued blank ?_ position
      intro piece member place
      have calm := undisturbed.mono (mem_continued_following member rest?)
      rw [propertyTexts_eq_map] at member
      rcases List.mem_map.mp member with ⟨property, within, rfl⟩
      have heading := (headed (.atom [] [] [])).wellFormed property
        (List.mem_append_right _ (List.mem_cons_of_mem _ within))
      exact neutral_property heading (values property within) calm place
  | @value before after earlier later rest? _ _ blank _ values =>
      refine neutral_continued blank ?_ position
      intro piece member place
      have calm := undisturbed.mono (mem_continued_following member rest?)
      rw [valueTexts_eq_map] at member
      rcases List.mem_map.mp member with ⟨value, within, rfl⟩
      exact ((values value within).2.reads calm place).1

/-- In the hole a scan is inside the brackets. -/
theorem WellFormed.pass_leading (wellFormed : layer.WellFormed) {recovery : Option Int}
    (undisturbed : Undisturbed recovery layer.leading) (position : Nat) {scan : Scan}
    (ready : scan.Ready) :
    scan.pass recovery position layer.leading = some (scan.enter layer.delimiter) := by
  have calm : Undisturbed recovery layer.opening :=
    undisturbed.mono fun c member => List.mem_append_right _ (List.mem_cons_of_mem _ member)
  have opening := wellFormed.neutral_opening calm (position + layer.before.length + 1)
  rw [leading, pass_append (pass_blanks wellFormed.blank_before recovery position ready),
    pass_cons_of_step (step_opener ready _ layer.delimiter)]
  exact opening _ (ready.enter layer.delimiter_isQuote) (List.cons_ne_nil _ _)

/-- A filled container is read as a whole if its body closes. -/
theorem WellFormed.reads_plug (wellFormed : layer.WellFormed) {recovery : Option Int}
    {position : Nat} {written : Written}
    (closes : Closes recovery (position + layer.before.length + 1) layer.delimiter
      (layer.body written.text)) :
    Reads recovery position (layer.plug written).text (layer.plug written).frame? := by
  rw [text_plug_eq_body, frame?_plug]
  exact reads_container layer.delimiter_eq wellFormed.blank_before wellFormed.blank_after closes

end Layer

/-! ## Reading around the hole -/

/-- The properties of a body are read as they are written if this holds for one value, and the
others are well-formed. -/
theorem Source.propertyNodes_around {body : Source} {earlier later : List (Heading × Written)}
    {heading : Heading} {value : Written} {rest? : Option Text}
    (blank : ∀ rest ∈ rest?, Text.isBlank rest)
    (headed : Headed (earlier ++ (heading, value) :: later) rest?)
    (colon : heading.colon = true)
    (earlierValues : ∀ property ∈ earlier, property.2.WellFormed)
    (laterValues : ∀ property ∈ later, property.2.WellFormed)
    (raw : body.raw = joined (propertyTexts (earlier ++ (heading, value) :: later)) rest?)
    (yields : (body.advance (terminated (propertyTexts earlier) ++ heading.text).length).Yields
      value (following (propertyTexts later) rest?).isSome) :
    body.propertyNodes =
      headedNodes rest? body.start body.caret (earlier ++ (heading, value) :: later) := by
  induction earlier generalizing body with
  | nil =>
      have consumed := Heading.consumed_of_colon colon
      refine propertyNodes_cons headed raw (by rw [consumed]; exact yields) ?_
      exact propertyNodes_eq blank headed.2.2
        (fun property member _ _ begins => (laterValues property member).yields begins)
        (advance_property_raw headed raw)
  | cons property more induct =>
      rcases property with ⟨first, firstValue⟩
      have firstColon : first.colon = true := Headed.colon_of_append headed
      have here := (earlierValues (first, firstValue) List.mem_cons_self).yields
        (advance_consumed_raw headed raw)
      refine propertyNodes_cons headed raw here ?_
      refine induct headed.2.2
        (fun other member => earlierValues other (List.mem_cons_of_mem _ member))
        (advance_property_raw headed raw) ?_
      have length : first.consumed + (firstValue.text.length + 1) +
          (terminated (propertyTexts more) ++ heading.text).length =
            (terminated (propertyTexts ((first, firstValue) :: more)) ++ heading.text).length := by
        rw [Heading.consumed_of_colon firstColon, propertyTexts, terminated]
        simp only [List.length_append, List.length_cons]
        omega
      rw [advance_advance, length]
      exact yields

/-- The values of a body are read as they are written if this holds for one value, and the others
are well-formed. The caret has to lie in the body or nowhere. -/
theorem Source.valueNodes_around {body : Source} {earlier later : List Written}
    {value : Written} {rest? : Option Text} (inside : body.advance 0 = body)
    (blank : ∀ rest ∈ rest?, Text.isBlank rest) (visible : value.text.isBlank = false)
    (earlierValues : ∀ other ∈ earlier, other.text.isBlank = false ∧ other.WellFormed)
    (laterValues : ∀ other ∈ later, other.text.isBlank = false ∧ other.WellFormed)
    (raw : body.raw = joined (valueTexts (earlier ++ value :: later)) rest?)
    (yields : (body.advance (terminated (valueTexts earlier)).length).Yields value
      (following (valueTexts later) rest?).isSome) :
    body.valueNodes = writtenNodes rest? body.start body.caret (earlier ++ value :: later) := by
  induction earlier generalizing body with
  | nil =>
      have here : body.Yields value (following (valueTexts later) rest?).isSome := by
        rw [← inside]
        exact yields
      refine valueNodes_cons visible raw here ?_
      exact valueNodes_eq blank (fun other member => (laterValues other member).1)
        (fun other member _ _ begins => (laterValues other member).2.yields begins)
        (advance_value_raw raw)
  | cons first more induct =>
      obtain ⟨firstVisible, firstWellFormed⟩ := earlierValues first List.mem_cons_self
      have here := @Written.WellFormed.yields first firstWellFormed body
        (following (valueTexts (more ++ value :: later)) rest?)
        (by rw [raw, List.cons_append, valueTexts, joined_cons])
      refine valueNodes_cons firstVisible raw here ?_
      refine induct (by rw [advance_advance, Nat.add_zero])
        (fun other member => earlierValues other (List.mem_cons_of_mem _ member))
        (advance_value_raw raw) ?_
      have length : first.text.length + 1 + (terminated (valueTexts more)).length =
          (terminated (valueTexts (first :: more))).length := by
        rw [valueTexts, terminated]
        simp only [List.length_append, List.length_cons]
        omega
      rw [advance_advance, length]
      exact yields

namespace Layer

variable {layer : Layer} {written : Written} {start : Nat} {caret : Caret}

/-- The source that begins in the hole, if the container is read at a place. -/
def hole (layer : Layer) (written : Written) (start : Nat) (caret : Caret) : Source where
  raw := written.text ++ continued layer.more?
  start := start + layer.leading.length
  caret := caret.into layer.leading.length
    (layer.leading.length + (written.text ++ continued layer.more?).length)

/-- The body of a filled container, as a source. -/
def bodySource (layer : Layer) (written : Written) (start : Nat) (caret : Caret) : Source where
  raw := layer.body written.text
  start := start + (layer.before.length + 1)
  caret := bodyCaret caret layer.before (layer.body written.text)

theorem bodySource_advance_zero :
    (layer.bodySource written start caret).advance 0 = layer.bodySource written start caret := by
  refine Source.ext rfl rfl ?_
  rw [Source.advance_caret, bodySource, bodyCaret]
  simp only [Int.natCast_zero]
  rw [Caret.into_into _ (Int.le_refl 0) (Int.le_refl _), Int.add_zero]

theorem bodySource_advance_opening :
    (layer.bodySource written start caret).advance layer.opening.length =
      layer.hole written start caret := by
  have length : layer.before.length + 1 + layer.opening.length = layer.leading.length := by
    simp only [leading, List.length_append, List.length_cons]
    omega
  have rest : (layer.body written.text).length =
      layer.opening.length + (written.text ++ continued layer.more?).length := by
    simp only [body, List.length_append]
    omega
  apply Source.ext
  · rw [Source.advance, bodySource, hole, body, List.append_assoc, List.drop_left]
  · simp only [Source.advance, bodySource, hole, Nat.add_assoc, ← length]
  · rw [Source.advance_caret, bodySource, bodyCaret, hole]
    simp only
    rw [Caret.into_into _ (Int.natCast_nonneg _) (Int.le_refl _), rest, ← length]
    simp only [Int.natCast_add, Int.add_assoc]
    rfl

/-- A filled container is looked into as it is described if this holds for the element in the
hole. -/
theorem WellFormed.node_plug (wellFormed : layer.WellFormed)
    (visible : written.text.isBlank = false)
    (yields : (layer.hole written start caret).Yields written layer.more?.isSome) (comma : Bool) :
    ((layer.plug written).chunk start caret comma).node =
      (layer.plug written).node start caret comma := by
  rw [← bodySource_advance_opening] at yields
  have settled : (layer.bodySource written start caret).advance 0 =
    layer.bodySource written start caret := bodySource_advance_zero
  have raw : layer.body written.text =
      layer.opening ++ (written.text ++ continued layer.more?) := by
    rw [body, List.append_assoc]
  cases wellFormed with
  | @property before after earlier later heading rest? blankBefore blankAfter blank headed ahead
      behind =>
      have colon : heading.colon = true := (headed written).colon_of_visible visible
      have joinedBody : joined (propertyTexts (earlier ++ (heading, written) :: later)) rest? =
          (Layer.property before earlier heading later rest? after).body written.text := by
        rw [propertyTexts_append, propertyTexts, joined_append_cons, raw]
        simp [opening, more?]
      apply Written.node_chunk_object blankBefore blankAfter
      rw [joinedBody]
      exact Source.propertyNodes_around blank (headed written) colon ahead behind joinedBody.symm
        yields
  | @value before after earlier later rest? blankBefore blankAfter blank ahead behind =>
      have joinedBody : joined (valueTexts (earlier ++ written :: later)) rest? =
          (Layer.value before earlier later rest? after).body written.text := by
        rw [valueTexts_append, valueTexts, joined_append_cons, raw]
        rfl
      apply Written.node_chunk_array blankBefore blankAfter
      rw [joinedBody]
      exact Source.valueNodes_around settled blank visible ahead behind joinedBody.symm yields

/-- The properties show themselves around what one value shows. -/
theorem propertyOutlines_around {earlier later : List (Heading × Written)} {heading : Heading}
    {rest? : Option Text} {outline : Outline}
    (ahead : ∀ property ∈ earlier, property.2.WellFormed)
    (element : ∀ start caret, (written.node start caret
      (following (propertyTexts later) rest?).isSome).outline = outline)
    (behind : ∀ property ∈ later, property.2.WellFormed) (start : Nat) (caret : Caret) :
    propertyOutlines (headedNodes rest? start caret (earlier ++ (heading, written) :: later)).1 =
      headedOutlines earlier ++ (some heading.name, outline) :: headedOutlines later := by
  induction earlier generalizing start caret with
  | nil =>
      have rest := @propertyOutlines_headedNodes rest? later
        fun property member => (behind property member).outline_node
      rw [List.nil_append, headedNodes, propertyOutlines, element, rest]
      rfl
  | cons property more induct =>
      have here := (ahead property List.mem_cons_self).outline_node
      have rest := induct fun other member => ahead other (List.mem_cons_of_mem _ member)
      rw [List.cons_append, headedNodes, propertyOutlines, here, rest]
      rfl

/-- The values show themselves around what one of them shows. -/
theorem valueOutlines_around {earlier later : List Written} {rest? : Option Text}
    {outline : Outline} (ahead : ∀ value ∈ earlier, value.WellFormed)
    (element : ∀ start caret, (written.node start caret
      (following (valueTexts later) rest?).isSome).outline = outline)
    (behind : ∀ value ∈ later, value.WellFormed) (start : Nat) (caret : Caret) :
    valueOutlines (writtenNodes rest? start caret (earlier ++ written :: later)).1 =
      writtenOutlines earlier ++ outline :: writtenOutlines later := by
  induction earlier generalizing start caret with
  | nil =>
      have rest := @valueOutlines_writtenNodes rest? later
        fun value member => (behind value member).outline_node
      rw [List.nil_append, writtenNodes, valueOutlines, element, rest]
      rfl
  | cons value more induct =>
      have here := (ahead value List.mem_cons_self).outline_node
      have rest := induct fun other member => ahead other (List.mem_cons_of_mem _ member)
      rw [List.cons_append, writtenNodes, valueOutlines, here, rest]
      rfl

/-- The container shows itself around what the element in the hole shows. -/
theorem WellFormed.outline_node_plug (wellFormed : layer.WellFormed) {outline : Outline}
    (element : ∀ start caret, (written.node start caret layer.more?.isSome).outline = outline)
    (start : Nat) (caret : Caret) (comma : Bool) :
    ((layer.plug written).node start caret comma).outline = layer.outlineAround outline := by
  cases wellFormed with
  | property _ _ _ _ ahead behind =>
      exact congrArg Outline.object (propertyOutlines_around ahead element behind _ _)
  | value _ _ _ ahead behind =>
      exact congrArg Outline.array (valueOutlines_around
        (fun value member => (ahead value member).2) element
        (fun value member => (behind value member).2) _ _)

theorem not_isBlank_plug (layer : Layer) (written : Written) :
    (layer.plug written).text.isBlank = false := by
  rw [text_plug_eq_body]
  exact Text.not_isBlank_of_mem (by simp) layer.delimiter.isBlank_opener

end Layer

/-! ## Contexts -/

/-- Fill the hole of the innermost layer. -/
def filled : List Layer → Written → Written
  | [], written => written
  | layer :: inner, written => layer.plug (filled inner written)

/-- All that stands before the hole of the innermost layer. -/
def ahead : List Layer → Text
  | [] => []
  | layer :: inner => layer.leading ++ ahead inner

/-- All that stands behind the hole of the innermost layer. -/
def behind : List Layer → Text
  | [] => []
  | layer :: inner => behind inner ++ layer.trailing

/-- The outline of all layers around the outline of an element. -/
def outlineAround : List Layer → Outline → Outline
  | [], outline => outline
  | layer :: inner, outline => layer.outlineAround (outlineAround inner outline)

theorem text_filled (layers : List Layer) (written : Written) :
    (filled layers written).text = ahead layers ++ written.text ++ behind layers := by
  induction layers with
  | nil => simp [filled, ahead, behind]
  | cons layer inner induct =>
      rw [filled, Layer.text_plug, induct, ahead, behind]
      simp only [List.append_assoc]

theorem outline_filled (layers : List Layer) (written : Written) :
    (filled layers written).outline = outlineAround layers written.outline := by
  induction layers with
  | nil => rfl
  | cons layer inner induct => rw [filled, Layer.outline_plug, induct, outlineAround]

theorem not_isBlank_filled {layers : List Layer} {written : Written}
    (visible : written.text.isBlank = false) :
    (filled layers written).text.isBlank = false := by
  cases layers with
  | nil => exact visible
  | cons layer inner => exact layer.not_isBlank_plug _

/-- The layers around an element of a well-formed tree are well-formed, and so is the element. -/
theorem wellFormed_of_filled {layers : List Layer} {written : Written}
    (wellFormed : (filled layers written).WellFormed)
    (visible : written.text.isBlank = false) :
    (∀ layer ∈ layers, layer.WellFormed) ∧ written.WellFormed := by
  induction layers with
  | nil => exact ⟨by simp, wellFormed⟩
  | cons layer inner induct =>
      obtain ⟨outer, rest⟩ := Layer.wellFormed_of_plug wellFormed (not_isBlank_filled visible)
      obtain ⟨others, element⟩ := induct rest
      exact ⟨List.forall_mem_cons.mpr ⟨outer, others⟩, element⟩

/-- A context of well-formed layers around a well-formed element that can be seen. -/
theorem wellFormed_filled {layers : List Layer}
    (wellFormed : ∀ layer ∈ layers, layer.WellFormed) {written : Written}
    (element : written.WellFormed) (visible : written.text.isBlank = false) :
    (filled layers written).WellFormed := by
  induction layers with
  | nil => exact element
  | cons layer inner induct =>
      rcases List.forall_mem_cons.mp wellFormed with ⟨outer, others⟩
      exact outer.plug (induct others) (not_isBlank_filled visible)

end Typeahead.Selector
