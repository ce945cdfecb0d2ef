import Typeahead.Proofs.Selector.Chunk

/-!
# The tree of a written selector

The node that is read for a written selector is described by recursion on the selector, with
all places and carets. Reading the text gives exactly this node, wherever the caret is. Each
element is read from a source that begins with its text, and the source behind it begins with the
text of the next one.
-/

namespace Typeahead.Selector

/-! ## The description -/

/-- The number of characters that are taken for a key. One without a colon takes a character
behind the end. -/
def Heading.consumed (heading : Heading) : Nat :=
  heading.text.length + if heading.colon then 0 else 1

theorem Heading.consumed_of_colon {heading : Heading} (colon : heading.colon = true) :
    heading.consumed = heading.text.length := by
  rw [consumed, colon, if_pos rfl, Nat.add_zero]

/-- The caret in a body behind the opener that follows some blanks. -/
def bodyCaret (caret : Caret) (before body : Text) : Caret :=
  caret.into (before.length + 1) (before.length + 1 + body.length)

mutual

/-- The node that is read for a written tree at a place. -/
def Written.node (start : Nat) (caret : Caret) (comma : Bool) : Written → Node
  | .atom before text after =>
      let written := Written.atom before text after
      .span (written.text ++ commaText comma) start (caret.within 0 (written.text.length + 1))
  | .object before properties rest? after =>
      let body := joined (propertyTexts properties) rest?
      let elements := headedNodes rest? (start + (before.length + 1))
        (bodyCaret caret before body) properties
      .object ((Written.object before properties rest? after).text ++ commaText comma) start
        elements.2 elements.1
  | .array before values rest? after =>
      let body := joined (valueTexts values) rest?
      let elements := writtenNodes rest? (start + (before.length + 1))
        (bodyCaret caret before body) values
      .array ((Written.array before values rest? after).text ++ commaText comma) start
        elements.2 elements.1

/-- The properties that are read for written ones, with the index of the one at the caret. -/
def headedNodes (rest? : Option Text) (start : Nat) (caret : Caret) :
    List (Heading × Written) → List (Option Key × Node) × Option Nat
  | [] => ([], caret.map fun _ => 0)
  | (heading, value) :: more =>
      let length := (joined (propertyTexts ((heading, value) :: more)) rest?).length
      let width := heading.consumed + (value.text.length + 1)
      let others := headedNodes rest? (start + width) (caret.into width length) more
      ((some (heading.key start caret),
          value.node (start + heading.consumed) (caret.into heading.consumed length)
            (following (propertyTexts more) rest?).isSome) :: others.1,
        caret.map fun _ => others.2.elim 0 (· + 1))

/-- The values that are read for written ones, with the index of the one at the caret. -/
def writtenNodes (rest? : Option Text) (start : Nat) (caret : Caret) :
    List Written → List Node × Option Nat
  | [] => ([], caret.map fun _ => 0)
  | value :: more =>
      let length := (joined (valueTexts (value :: more)) rest?).length
      let width := value.text.length + 1
      let others := writtenNodes rest? (start + width) (caret.into width length) more
      (value.node start caret (following (valueTexts more) rest?).isSome :: others.1,
        caret.map fun _ => others.2.elim 0 (· + 1))

end

@[simp]
theorem Written.node_raw (written : Written) (start : Nat) (caret : Caret) (comma : Bool) :
    (written.node start caret comma).raw = written.text ++ commaText comma := by
  cases written <;> rfl

@[simp]
theorem Written.node_start (written : Written) (start : Nat) (caret : Caret) (comma : Bool) :
    (written.node start caret comma).start = start := by
  cases written <;> rfl

/-! ## Bodies -/

theorem beforeCloser?_padded {inner after : Text} {closer : Char} (blank : after.isBlank)
    (visible : isBlank closer = false) (noComma : closer ≠ ',') (comma : Bool) :
    beforeCloser? closer (inner ++ closer :: after ++ commaText comma) = some inner := by
  have whole : inner ++ closer :: after = (inner ++ [closer]) ++ after := by simp
  have kept : Text.trimRight (inner ++ closer :: after) = inner ++ [closer] := by
    rw [whole, Text.trimRight_append_of_isBlank blank, Text.trimRight_concat inner visible]
  have last : (inner ++ closer :: after).getLast? ≠ some ',' := by
    rw [whole]
    rcases List.eq_nil_or_concat after with rfl | ⟨front, c, rfl⟩
    · simpa using noComma
    · rw [List.concat_eq_append] at blank ⊢
      rw [← List.append_assoc, List.getLast?_concat, ne_eq, Option.some.injEq]
      rintro rfl
      have comma := Text.forall_isBlank blank ',' (by simp)
      contradiction
  unfold beforeCloser?
  cases comma with
  | false =>
      simp only [commaText, Bool.false_eq_true, if_false, List.append_nil, last, kept,
        List.getLast?_concat, if_true, List.dropLast_concat]
  | true =>
      simp only [commaText, if_true, List.getLast?_concat, List.dropLast_concat, kept]

/-- The body of a chunk between two brackets. -/
theorem Chunk.body?_of_frame {chunk : Chunk} {delimiter : Delimiter}
    (framed : delimiter = .brace ∨ delimiter = .bracket)
    (frame : chunk.frame = some ⟨delimiter, true⟩) {before body after : Text} {comma : Bool}
    (raw : chunk.raw =
      before ++ delimiter.opener :: body ++ delimiter.closer :: after ++ commaText comma)
    (blankBefore : before.isBlank) (blankAfter : after.isBlank) {caret : Caret} {length : Nat}
    (cursor : chunk.cursor = caret.within 0 length)
    (fits : before.length + 1 + body.length ≤ length) :
    chunk.body? =
      some (delimiter, ⟨body, chunk.start + (before.length + 1), bodyCaret caret before body⟩) := by
  have visible : isBlank delimiter.opener = false ∧ isBlank delimiter.closer = false ∧
      delimiter.closer ≠ ',' := by
    rcases framed with rfl | rfl <;> decide
  have shape : chunk.raw =
      before ++ delimiter.opener :: (body ++ delimiter.closer :: after ++ commaText comma) := by
    rw [raw]
    simp
  have opening : chunk.openerLength = before.length + 1 := by
    rw [Chunk.openerLength, shape, Text.leadingBlanks_append blankBefore visible.1]
  have inner : Frame.inner? ⟨delimiter, true⟩ chunk.raw = some body := by
    rw [Frame.inner?, shape, Text.trimLeft_append_of_isBlank blankBefore,
      Text.trimLeft_cons visible.1]
    simp only [if_true]
    exact beforeCloser?_padded blankAfter visible.2.1 visible.2.2 comma
  have inside : (Caret.within (chunk.cursor.map Int.ofNat) (before.length + 1 : Nat)
      ((before.length + 1 : Nat) + body.length)).map Int.ofNat =
        bodyCaret caret before body := by
    rw [cursor]
    have nested := @Caret.into_into caret 0 length (before.length + 1 : Nat)
      ((before.length + 1 : Nat) + body.length) (by omega) (by omega)
    rw [Int.zero_add, Int.zero_add] at nested
    exact nested
  rw [Chunk.body?, frame, Option.bind_some, inner, Option.map_some, opening]
  rw [inside]

/-! ## Elements -/

/-- A body with visible characters has a first element. -/
theorem Source.elements_of_visible {α : Type} {take : Source → α × Source}
    {shortens : ∀ source, source.raw ≠ [] → (take source).2.raw.length < source.raw.length}
    {source : Source} (visible : source.raw.isBlank = false) :
    source.elements take shortens =
      ((take source).1 :: ((take source).2.elements take shortens).1,
        source.caret.map fun _ =>
          ((take source).2.elements take shortens).2.elim 0 (· + 1)) := by
  rw [Source.elements, dif_neg (by simp [visible])]

theorem Source.elements_of_blank {α : Type} {take : Source → α × Source}
    {shortens : ∀ source, source.raw ≠ [] → (take source).2.raw.length < source.raw.length}
    {source : Source} (blank : source.raw.isBlank) :
    source.elements take shortens = ([], source.caret.map fun _ => 0) := by
  rw [Source.elements, dif_pos blank]

/-- The properties of a body, each one looked into. -/
def Source.propertyNodes (body : Source) : List (Option Key × Node) × Option Nat :=
  (body.properties.1.map fun property => (property.1, property.2.node), body.properties.2)

/-- The values of a body, each one looked into. -/
def Source.valueNodes (body : Source) : List Node × Option Nat :=
  (body.values.1.map Chunk.node, body.values.2)

theorem Source.propertyNodes_of_blank {body : Source} (blank : body.raw.isBlank) :
    body.propertyNodes = ([], body.caret.map fun _ => 0) := by
  rw [propertyNodes, properties, elements_of_blank blank, List.map_nil]

theorem Source.valueNodes_of_blank {body : Source} (blank : body.raw.isBlank) :
    body.valueNodes = ([], body.caret.map fun _ => 0) := by
  rw [valueNodes, values, elements_of_blank blank, List.map_nil]

theorem Source.propertyNodes_of_visible {body : Source} (visible : body.raw.isBlank = false) :
    body.propertyNodes =
      ((body.takeProperty.1.1, body.takeProperty.1.2.node) ::
          body.takeProperty.2.propertyNodes.1,
        body.caret.map fun _ => body.takeProperty.2.propertyNodes.2.elim 0 (· + 1)) := by
  rw [propertyNodes, properties, elements_of_visible visible, List.map_cons]
  rfl

theorem Source.valueNodes_of_visible {body : Source} (visible : body.raw.isBlank = false) :
    body.valueNodes =
      (body.takeValue.1.node :: body.takeValue.2.valueNodes.1,
        body.caret.map fun _ => body.takeValue.2.valueNodes.2.elim 0 (· + 1)) := by
  rw [valueNodes, values, elements_of_visible visible, List.map_cons]
  rfl

theorem Label.WellFormed.not_isBlank {label : Label} (wellFormed : label.WellFormed) :
    label.text.isBlank = false := by
  cases wellFormed with
  | @bare c rest visible _ => exact Text.not_isBlank_of_mem List.mem_cons_self visible
  | @quoted quote name isQuote =>
      exact Text.not_isBlank_of_mem List.mem_cons_self (not_isBlank_of_isQuote isQuote)

theorem Heading.WellFormed.not_isBlank {heading : Heading} (wellFormed : heading.WellFormed)
    (rest : Text) : (heading.text ++ rest).isBlank = false := by
  rw [Heading.text]
  simp only [Text.isBlank_append, wellFormed.label.not_isBlank, Bool.and_false, Bool.false_and]

/-- The value at the start of a source is a written one, which is taken with the comma behind it
and looked into as it is described. -/
structure Source.Yields (source : Source) (value : Written) (comma : Bool) : Prop where
  taken : source.takeValue =
    (value.chunk source.start source.caret comma, source.advance (value.text.length + 1))
  node : (value.chunk source.start source.caret comma).node =
    value.node source.start source.caret comma

/-- A well-formed property is taken from the start of a body: the key, and then the value. -/
theorem Source.takeProperty_of_heading {body : Source} {heading : Heading} {value : Written}
    {more? : Option Text} (wellFormed : heading.WellFormed)
    (last : heading.colon = false → value = .atom [] [] [] ∧ more? = none)
    (raw : body.raw = heading.text ++ value.text ++ continued more?)
    (yields : (body.advance heading.consumed).Yields value more?.isSome) :
    body.takeProperty =
      ((some (heading.key body.start body.caret),
          value.chunk (body.advance heading.consumed).start
            (body.advance heading.consumed).caret more?.isSome),
        body.advance (heading.consumed + (value.text.length + 1))) := by
  have keyTaken : body.takeKey =
      (some (heading.key body.start body.caret), body.advance heading.consumed) := by
    cases colon : heading.colon with
    | true =>
        rw [Heading.consumed_of_colon colon]
        exact Source.takeKey_of_colon wellFormed colon (by rw [raw, List.append_assoc])
    | false =>
        obtain ⟨rfl, rfl⟩ := last colon
        rw [Heading.consumed, colon, if_neg Bool.false_ne_true]
        apply Source.takeKey_of_no_colon wellFormed colon
        rw [raw]
        simp [Written.text, continued]
  rw [takeProperty, keyTaken]
  simp only
  rw [yields.taken, advance_advance]

/-! ## Bodies of containers -/

theorem getD_following (more : List Text) (rest? : Option Text) :
    (following more rest?).getD [] = joined more rest? := by
  rw [following]
  split
  · rename_i nothing
    rw [Bool.and_eq_true, List.isEmpty_iff, Option.isNone_iff_eq_none] at nothing
    rcases nothing with ⟨rfl, rfl⟩
    rfl
  · rfl

/-- Behind a piece and its comma the next pieces follow. -/
theorem drop_joined_cons (piece : Text) (more : List Text) (rest? : Option Text) :
    (joined (piece :: more) rest?).drop (piece.length + 1) = joined more rest? := by
  rw [joined_cons, ← getD_following, List.drop_append, List.drop_of_length_le (Nat.le_succ _),
    Nat.add_sub_cancel_left]
  cases following more rest? <;> rfl

/-- Behind its key a property goes on with its value. -/
theorem Heading.drop_consumed {heading : Heading} {value : Text} {more? : Option Text}
    (last : heading.colon = false → value = [] ∧ more? = none) :
    (heading.text ++ value ++ continued more?).drop heading.consumed =
      value ++ continued more? := by
  rw [consumed, List.append_assoc]
  cases colon : heading.colon with
  | true => rw [if_pos rfl, Nat.add_zero, List.drop_left]
  | false =>
      obtain ⟨rfl, rfl⟩ := last colon
      rw [if_neg Bool.false_ne_true]
      simp [continued]

namespace Source

variable {body : Source} {rest? : Option Text}

/-- Read the first property of a body, and then the others. -/
theorem propertyNodes_cons {heading : Heading} {value : Written}
    {more : List (Heading × Written)} (headed : Headed ((heading, value) :: more) rest?)
    (raw : body.raw = joined (propertyTexts ((heading, value) :: more)) rest?)
    (yields : (body.advance heading.consumed).Yields value
      (following (propertyTexts more) rest?).isSome)
    (later :
      (body.advance (heading.consumed + (value.text.length + 1))).propertyNodes =
        headedNodes rest? (body.start + (heading.consumed + (value.text.length + 1)))
          (body.caret.into (heading.consumed + (value.text.length + 1) : Nat) body.raw.length)
          more) :
    body.propertyNodes = headedNodes rest? body.start body.caret ((heading, value) :: more) := by
  rcases headed with ⟨wellFormed, last, _⟩
  have split := raw
  rw [propertyTexts, joined_cons] at split
  have visible : body.raw.isBlank = false := by
    rw [split, List.append_assoc]
    exact wellFormed.not_isBlank _
  have finished : heading.colon = false →
      value = .atom [] [] [] ∧ following (propertyTexts more) rest? = none := by
    intro colon
    obtain ⟨empty, rfl, rfl⟩ := last colon
    exact ⟨empty, rfl⟩
  have taken := takeProperty_of_heading wellFormed finished split yields
  rw [propertyNodes_of_visible visible, taken]
  simp only
  rw [yields.node, later, headedNodes, ← raw]
  rfl

/-- Read the first value of a body, and then the others. -/
theorem valueNodes_cons {value : Written} {more : List Written}
    (visible : value.text.isBlank = false)
    (raw : body.raw = joined (valueTexts (value :: more)) rest?)
    (yields : body.Yields value (following (valueTexts more) rest?).isSome)
    (later :
      (body.advance (value.text.length + 1)).valueNodes =
        writtenNodes rest? (body.start + (value.text.length + 1))
          (body.caret.into (value.text.length + 1 : Nat) body.raw.length) more) :
    body.valueNodes = writtenNodes rest? body.start body.caret (value :: more) := by
  have shown : body.raw.isBlank = false := by
    rw [raw, valueTexts, joined_cons, Text.isBlank_append, visible, Bool.false_and]
  rw [valueNodes_of_visible shown, yields.taken]
  simp only
  rw [yields.node, later, writtenNodes, ← raw]

theorem propertyNodes_nil (blank : ∀ rest ∈ rest?, Text.isBlank rest)
    (raw : body.raw = joined [] rest?) :
    body.propertyNodes = headedNodes rest? body.start body.caret [] := by
  rw [headedNodes]
  refine propertyNodes_of_blank ?_
  rw [raw]
  cases rest? with
  | none => rfl
  | some rest => exact blank rest rfl

theorem valueNodes_nil (blank : ∀ rest ∈ rest?, Text.isBlank rest)
    (raw : body.raw = joined [] rest?) :
    body.valueNodes = writtenNodes rest? body.start body.caret [] := by
  rw [writtenNodes]
  refine valueNodes_of_blank ?_
  rw [raw]
  cases rest? with
  | none => rfl
  | some rest => exact blank rest rfl

/-- Behind the key of a property there is the value. -/
theorem advance_consumed_raw {heading : Heading} {value : Written}
    {more : List (Heading × Written)} (headed : Headed ((heading, value) :: more) rest?)
    (raw : body.raw = joined (propertyTexts ((heading, value) :: more)) rest?) :
    (body.advance heading.consumed).raw =
      value.text ++ continued (following (propertyTexts more) rest?) := by
  rw [advance, raw, propertyTexts, joined_cons]
  refine Heading.drop_consumed fun colon => ?_
  obtain ⟨rfl, rfl, rfl⟩ := headed.2.1 colon
  exact ⟨rfl, rfl⟩

/-- Behind a property there are the others. -/
theorem advance_property_raw {heading : Heading} {value : Written}
    {more : List (Heading × Written)} (headed : Headed ((heading, value) :: more) rest?)
    (raw : body.raw = joined (propertyTexts ((heading, value) :: more)) rest?) :
    (body.advance (heading.consumed + (value.text.length + 1))).raw =
      joined (propertyTexts more) rest? := by
  rw [← advance_advance, advance, advance_consumed_raw headed raw, ← joined_cons]
  exact drop_joined_cons _ _ _

/-- Behind a value there are the others. -/
theorem advance_value_raw {value : Written} {more : List Written}
    (raw : body.raw = joined (valueTexts (value :: more)) rest?) :
    (body.advance (value.text.length + 1)).raw = joined (valueTexts more) rest? := by
  rw [advance, raw]
  exact drop_joined_cons _ _ _

/-- The properties of a body of well-formed ones are read as they are written. -/
theorem propertyNodes_eq {properties : List (Heading × Written)}
    (blank : ∀ rest ∈ rest?, Text.isBlank rest) (headed : Headed properties rest?)
    (values : ∀ property ∈ properties, ∀ (source : Source) (more? : Option Text),
      source.raw = property.2.text ++ continued more? → source.Yields property.2 more?.isSome)
    (raw : body.raw = joined (propertyTexts properties) rest?) :
    body.propertyNodes = headedNodes rest? body.start body.caret properties := by
  induction properties generalizing body with
  | nil => exact propertyNodes_nil blank raw
  | cons property more induct =>
      rcases property with ⟨heading, value⟩
      have yields := values (heading, value) List.mem_cons_self _ _
        (advance_consumed_raw headed raw)
      refine propertyNodes_cons headed raw yields ?_
      exact induct headed.2.2 (fun other member => values other (List.mem_cons_of_mem _ member))
        (advance_property_raw headed raw)

/-- The values of a body of well-formed ones are read as they are written. -/
theorem valueNodes_eq {values : List Written} (blank : ∀ rest ∈ rest?, Text.isBlank rest)
    (visible : ∀ value ∈ values, value.text.isBlank = false)
    (yields : ∀ value ∈ values, ∀ (source : Source) (more? : Option Text),
      source.raw = value.text ++ continued more? → source.Yields value more?.isSome)
    (raw : body.raw = joined (valueTexts values) rest?) :
    body.valueNodes = writtenNodes rest? body.start body.caret values := by
  induction values generalizing body with
  | nil => exact valueNodes_nil blank raw
  | cons value more induct =>
      have here := yields value List.mem_cons_self body (following (valueTexts more) rest?)
        (by rw [raw, valueTexts, joined_cons])
      refine valueNodes_cons (visible _ List.mem_cons_self) raw here ?_
      exact induct (fun other member => visible other (List.mem_cons_of_mem _ member))
        (fun other member => yields other (List.mem_cons_of_mem _ member))
        (advance_value_raw raw)

end Source

/-! ## Trees -/

/-- A chunk that is no object and no array is a leaf. -/
theorem Written.node_chunk_atom (before text after : Text) (start : Nat) (caret : Caret)
    (comma : Bool) :
    ((Written.atom before text after).chunk start caret comma).node =
      (Written.atom before text after).node start caret comma :=
  Chunk.node_of_body?_eq_none rfl

/-- The chunk of an object is looked into by reading the properties of its body. -/
theorem Written.node_chunk_object {before after : Text} {properties : List (Heading × Written)}
    {rest? : Option Text} {start : Nat} {caret : Caret} {comma : Bool}
    (blankBefore : before.isBlank) (blankAfter : after.isBlank)
    (read :
      (Source.mk (joined (propertyTexts properties) rest?) (start + (before.length + 1))
        (bodyCaret caret before (joined (propertyTexts properties) rest?))).propertyNodes =
          headedNodes rest? (start + (before.length + 1))
            (bodyCaret caret before (joined (propertyTexts properties) rest?)) properties) :
    ((Written.object before properties rest? after).chunk start caret comma).node =
      (Written.object before properties rest? after).node start caret comma := by
  have found := @Chunk.body?_of_frame
    ((Written.object before properties rest? after).chunk start caret comma) .brace (.inl rfl) rfl
    before (joined (propertyTexts properties) rest?) after comma
    (by rw [Written.chunk, Written.text]; rfl) blankBefore blankAfter caret
    ((Written.object before properties rest? after).text.length + 1) rfl
    (by simp only [Written.text, List.length_append, List.length_cons]; omega)
  rw [Chunk.node_of_body?_eq_brace found, Written.node, ← read]
  rfl

/-- The chunk of an array is looked into by reading the values of its body. -/
theorem Written.node_chunk_array {before after : Text} {values : List Written}
    {rest? : Option Text} {start : Nat} {caret : Caret} {comma : Bool}
    (blankBefore : before.isBlank) (blankAfter : after.isBlank)
    (read :
      (Source.mk (joined (valueTexts values) rest?) (start + (before.length + 1))
        (bodyCaret caret before (joined (valueTexts values) rest?))).valueNodes =
          writtenNodes rest? (start + (before.length + 1))
            (bodyCaret caret before (joined (valueTexts values) rest?)) values) :
    ((Written.array before values rest? after).chunk start caret comma).node =
      (Written.array before values rest? after).node start caret comma := by
  have found := @Chunk.body?_of_frame
    ((Written.array before values rest? after).chunk start caret comma) .bracket (.inr rfl) rfl
    before (joined (valueTexts values) rest?) after comma
    (by rw [Written.chunk, Written.text]; rfl) blankBefore blankAfter caret
    ((Written.array before values rest? after).text.length + 1) rfl
    (by simp only [Written.text, List.length_append, List.length_cons]; omega)
  rw [Chunk.node_of_body?_eq_bracket found, Written.node, ← read]
  rfl

/-- A source that begins with the text of a well-formed tree yields the tree. -/
theorem Written.WellFormed.yields {written : Written} (wellFormed : written.WellFormed)
    {source : Source} {more? : Option Text} (raw : source.raw = written.text ++ continued more?) :
    source.Yields written more?.isSome := by
  induction wellFormed generalizing source more? with
  | @atom before text after blankBefore blankAfter form =>
      refine ⟨(WellFormed.atom blankBefore blankAfter form).takeValue raw, ?_⟩
      exact node_chunk_atom before text after _ _ _
  | @object before after properties rest? blankBefore blankAfter blank headed values induct =>
      refine ⟨(WellFormed.object blankBefore blankAfter blank headed values).takeValue raw, ?_⟩
      exact node_chunk_object blankBefore blankAfter (Source.propertyNodes_eq blank headed
        (fun property member _ _ begins => induct property member begins) rfl)
  | @array before after values rest? blankBefore blankAfter blank visible wellFormed induct =>
      refine ⟨(WellFormed.array blankBefore blankAfter blank visible wellFormed).takeValue raw, ?_⟩
      exact node_chunk_array blankBefore blankAfter (Source.valueNodes_eq blank visible
        (fun value member _ _ begins => induct value member begins) rfl)

/-- The caret that is read with a text: a negative position is no caret. -/
def textCaret (position : Int) : Caret :=
  if position < 0 then none else some position

/-- A text is read as a tree that it yields as a source. -/
theorem parse_of_yields {written : Written} {position : Int}
    (yields : (Source.mk written.text 0 (textCaret position)).Yields written false) :
    parse written.text position = written.node 0 (textCaret position) false :=
  (congrArg (fun taken : Chunk × Source => taken.1.node) yields.taken).trans yields.node

/-- The text of a well-formed tree is read as it is described, wherever the caret is. -/
theorem Written.WellFormed.parse {written : Written} (wellFormed : written.WellFormed)
    (position : Int) :
    parse written.text position = written.node 0 (textCaret position) false :=
  parse_of_yields (@yields written wellFormed _ none (by rw [continued, List.append_nil]))

end Typeahead.Selector
