import Typeahead.Proofs.Text.Trim
import Typeahead.Selector.Focus

/-!
# Where nodes lie in a text

Everything that is taken from a text shows the part of the text at its place, unless it shows
nothing: what a value behind the end would be is empty, and its place may lie behind the end.
All nodes of a tree were looked into as chunks of the text, and each node below another one starts
behind its start.
-/

namespace Typeahead.Selector

/-! ## Parts of a text -/

/-- What stands in a text from a place on, up to a limit. -/
def Shows (text raw : Text) (start : Nat) : Prop :=
  ∃ limit, raw = (text.take limit).drop start

namespace Shows

variable {text raw : Text} {start : Nat}

theorem whole (text : Text) : Shows text text 0 :=
  ⟨text.length, by simp⟩

theorem drop (shows : Shows text raw start) (count : Nat) :
    Shows text (raw.drop count) (start + count) := by
  rcases shows with ⟨limit, rfl⟩
  exact ⟨limit, List.drop_drop⟩

theorem take (shows : Shows text raw start) (count : Nat) : Shows text (raw.take count) start := by
  rcases shows with ⟨limit, rfl⟩
  refine ⟨min (start + count) limit, ?_⟩
  rw [← List.take_take, List.drop_take, List.drop_take, List.drop_take, Nat.add_sub_cancel_left]

theorem left {rest : Text} (shows : Shows text (raw ++ rest) start) : Shows text raw start := by
  have taken := shows.take raw.length
  rw [List.take_left] at taken
  exact taken

theorem right {front : Text} (shows : Shows text (front ++ raw) start) :
    Shows text raw (start + front.length) := by
  have dropped := shows.drop front.length
  rw [List.drop_left] at dropped
  exact dropped

/-- What is shown is written in the text. -/
theorem subset (shows : Shows text raw start) : raw ⊆ text := by
  rcases shows with ⟨limit, rfl⟩
  exact List.Subset.trans (List.drop_subset _ _) (List.take_subset _ _)

/-- What is shown can be cut from the text. -/
theorem take_drop_eq (shows : Shows text raw start) : (text.drop start).take raw.length = raw := by
  rcases shows with ⟨limit, rfl⟩
  rw [List.drop_take, List.length_take, ← List.take_take, List.take_length]

/-- What is not empty lies in the text. -/
theorem stop_le (shows : Shows text raw start) (present : raw ≠ []) :
    start + raw.length ≤ text.length := by
  rcases shows with ⟨limit, rfl⟩
  have positive := List.length_pos_iff.mpr present
  simp only [List.length_drop, List.length_take] at positive ⊢
  omega

/-- What reaches to the end of the text ends as the text does. -/
theorem getLast?_eq (shows : Shows text raw start) (present : raw ≠ [])
    (reaches : text.length ≤ start + raw.length) : raw.getLast? = text.getLast? := by
  rcases shows with ⟨limit, rfl⟩
  have positive := List.length_pos_iff.mpr present
  simp only [List.length_drop, List.length_take] at positive reaches
  rw [List.take_of_length_le (by omega), List.getLast?_drop, if_neg (by omega)]

end Shows

/-! ## Sources and chunks -/

/-- A source that shows a text and starts at a place or behind it. -/
structure Source.Lies (text : Text) (least : Nat) (source : Source) : Prop where
  least : least ≤ source.start
  shows : Shows text source.raw source.start

/-- A chunk that shows a text and starts at a place or behind it. -/
structure Chunk.Lies (text : Text) (least : Nat) (chunk : Chunk) : Prop where
  least : least ≤ chunk.start
  shows : Shows text chunk.raw chunk.start
  framed : ∀ frame ∈ chunk.frame, frame.delimiter = .brace ∨ frame.delimiter = .bracket

/-- A key that shows a text and starts at a place or behind it. -/
structure Key.Lies (text : Text) (least : Nat) (key : Key) : Prop where
  least : least ≤ key.start
  shows : Shows text key.raw key.start

theorem Scan.frame?_delimiter {scan : Scan} {frame : Frame} (found : scan.frame? = some frame) :
    frame.delimiter = .brace ∨ frame.delimiter = .bracket := by
  unfold frame? at found
  split at found
  · rw [← Option.some.inj found]
    exact .inl rfl
  · rw [← Option.some.inj found]
    exact .inr rfl
  · contradiction

namespace Source

variable {text : Text} {least : Nat} {source : Source}

theorem Lies.advance (lies : source.Lies text least) (count : Nat) :
    (source.advance count).Lies text least where
  least := Nat.le_trans lies.least (Nat.le_add_right _ _)
  shows := lies.shows.drop count

theorem Lies.cut (lies : source.Lies text least) (scanned : Nat × Scan) :
    (source.cut scanned).1.Lies text least where
  least := lies.least
  shows := lies.shows.take _
  framed _ found := Scan.frame?_delimiter found

theorem Lies.takeKey (lies : source.Lies text least) :
    (∀ key ∈ source.takeKey.1, key.Lies text least) ∧ source.takeKey.2.Lies text least := by
  unfold Source.takeKey
  simp only
  split
  · refine ⟨by simp, ?_⟩
    simp only
    split
    · exact lies.advance _
    · exact lies
  · refine ⟨?_, lies.advance _⟩
    rintro key found
    rw [← Option.some.inj found]
    exact ⟨lies.least, lies.shows.take _⟩

theorem Lies.takeValue (lies : source.Lies text least) :
    source.takeValue.1.Lies text least ∧ source.takeValue.2.Lies text least :=
  ⟨lies.cut _, lies.advance _⟩

theorem Lies.takeProperty (lies : source.Lies text least) :
    ((∀ key ∈ source.takeProperty.1.1, key.Lies text least) ∧
      source.takeProperty.1.2.Lies text least) ∧ source.takeProperty.2.Lies text least := by
  rcases lies.takeKey with ⟨key, rest⟩
  rcases rest.takeValue with ⟨value, others⟩
  exact ⟨⟨key, value⟩, others⟩

/-- What holds of a body and behind each element holds where each element is taken. -/
theorem exists_take_of_mem_elements_of_keeps {α : Type} {take : Source → α × Source}
    {shortens : ∀ source, source.raw ≠ [] → (take source).2.raw.length < source.raw.length}
    {motive : Source → Prop} (keeps : ∀ part, motive part → motive (take part).2)
    (holds : motive source) {element : α}
    (member : element ∈ (source.elements take shortens).1) :
    ∃ part, motive part ∧ (take part).1 = element := by
  fun_induction elements take shortens source with
  | case1 source blank => contradiction
  | case2 source visible taken others induct =>
      rcases List.mem_cons.mp member with rfl | later
      · exact ⟨source, holds, rfl⟩
      · exact induct (keeps source holds) later

theorem Lies.of_mem_properties (lies : source.Lies text least) {property : Option Key × Chunk}
    (member : property ∈ source.properties.1) :
    (∀ key ∈ property.1, key.Lies text least) ∧ property.2.Lies text least := by
  have keeps (part : Source) (within : part.Lies text least) :
      part.takeProperty.2.Lies text least := within.takeProperty.2
  obtain ⟨part, within, rfl⟩ := exists_take_of_mem_elements_of_keeps keeps lies member
  exact within.takeProperty.1

theorem Lies.of_mem_values (lies : source.Lies text least) {value : Chunk}
    (member : value ∈ source.values.1) : value.Lies text least := by
  have keeps (part : Source) (within : part.Lies text least) :
      part.takeValue.2.Lies text least := within.takeValue.2
  obtain ⟨part, within, rfl⟩ := exists_take_of_mem_elements_of_keeps keeps lies member
  exact within.takeValue.1

end Source

/-! ## Bodies -/

/-- What stands before a closer is followed by it, and then by blanks and at most one comma. -/
theorem exists_ending_of_beforeCloser? {closer : Char} {afterOpener inner : Text}
    (found : beforeCloser? closer afterOpener = some inner) :
    ∃ blanks comma, Text.isBlank blanks = true ∧ (comma = [] ∨ comma = [',']) ∧
      afterOpener = inner ++ closer :: (blanks ++ comma) := by
  simp only [beforeCloser?, Option.ite_none_right_eq_some, Option.some.injEq] at found
  rcases found with ⟨closes, rfl⟩
  rcases List.getLast?_eq_some_iff.mp closes with ⟨front, ends⟩
  rw [ends, List.dropLast_concat]
  split at ends
  · rename_i comma
    obtain ⟨before, rfl⟩ := List.getLast?_eq_some_iff.mp comma
    rw [List.dropLast_concat] at ends
    obtain ⟨blanks, blank, whole⟩ := Text.exists_trimRight_append before
    refine ⟨blanks, [','], blank, .inr rfl, ?_⟩
    rw [← whole, ends]
    simp
  · obtain ⟨blanks, blank, whole⟩ := Text.exists_trimRight_append afterOpener
    refine ⟨blanks, [], blank, .inl rfl, ?_⟩
    rw [← whole, ends]
    simp

/-- What stands before a closer is followed by it, and then by no further value. -/
theorem exists_of_beforeCloser? {closer : Char} {afterOpener inner : Text}
    (found : beforeCloser? closer afterOpener = some inner) :
    ∃ rest, afterOpener = inner ++ closer :: rest ∧ Text.value rest = [] := by
  obtain ⟨blanks, comma, blank, rfl | rfl, whole⟩ := exists_ending_of_beforeCloser? found
  · exact ⟨blanks ++ [], whole, by rw [List.append_nil, Text.value_of_isBlank blank]⟩
  · exact ⟨blanks ++ [','], whole, Text.value_blanks_comma blank⟩

/-- A body is what follows blanks and an opener in its chunk. -/
theorem Chunk.exists_of_body? {chunk : Chunk} {delimiter : Delimiter} {body : Source}
    (found : chunk.body? = some (delimiter, body)) :
    ∃ frame ∈ chunk.frame, frame.delimiter = delimiter ∧
      body.start = chunk.start + (chunk.raw.leadingBlanks.length + 1) ∧
      ∃ afterOpener, chunk.raw = chunk.raw.leadingBlanks ++ delimiter.opener :: afterOpener ∧
        if frame.closed then beforeCloser? delimiter.closer afterOpener = some body.raw
        else body.raw = afterOpener := by
  simp only [Chunk.body?, Option.bind_eq_some_iff, Option.map_eq_some_iff, Prod.mk.injEq] at found
  rcases found with ⟨frame, framed, inner, cut, rfl, rfl⟩
  refine ⟨frame, framed, rfl, rfl, ?_⟩
  have whole := Text.leadingBlanks_append_trimLeft chunk.raw
  unfold Frame.inner? at cut
  split at cut
  · contradiction
  · rename_i c rest trimmed
    rw [trimmed] at whole
    split at cut
    · rename_i opener
      subst opener
      refine ⟨rest, whole.symm, ?_⟩
      split at cut
      · rename_i closed
        rw [if_pos closed]
        exact cut
      · rename_i closed
        rw [if_neg closed]
        exact (Option.some.inj cut).symm
    · contradiction

/-- A body lies in the text behind the start of its chunk. -/
theorem Chunk.Lies.body {text : Text} {least : Nat} {chunk : Chunk}
    (lies : chunk.Lies text least) {delimiter : Delimiter} {body : Source}
    (found : chunk.body? = some (delimiter, body)) : body.Lies text (chunk.start + 1) := by
  obtain ⟨frame, _, _, start, afterOpener, raw, inner⟩ := chunk.exists_of_body? found
  refine ⟨by omega, ?_⟩
  have shows := lies.shows
  rw [raw, List.append_cons] at shows
  have behind := shows.right
  rw [List.length_append, List.length_singleton, ← start] at behind
  split at inner
  · obtain ⟨rest, whole, _⟩ := exists_of_beforeCloser? inner
    rw [whole] at behind
    exact behind.left
  · rw [inner]
    exact behind

/-- The brackets around a body are braces or square brackets. -/
theorem Chunk.Lies.delimiter {text : Text} {least : Nat} {chunk : Chunk}
    (lies : chunk.Lies text least) {delimiter : Delimiter} {body : Source}
    (found : chunk.body? = some (delimiter, body)) :
    delimiter = .brace ∨ delimiter = .bracket := by
  obtain ⟨frame, framed, rfl, _⟩ := chunk.exists_of_body? found
  exact lies.framed frame framed

/-! ## Nodes -/

/-- The nodes of a tree: its root and all nodes below it. -/
inductive Node.Part (whole : Node) : Node → Prop
  | root : Part whole whole
  | property {raw : Text} {start : Nat} {cursor : Option Nat}
      {properties : List (Option Key × Node)} {property : Option Key × Node} :
      Part whole (.object raw start cursor properties) → property ∈ properties →
        Part whole property.2
  | value {raw : Text} {start : Nat} {cursor : Option Nat} {values : List Node} {value : Node} :
      Part whole (.array raw start cursor values) → value ∈ values → Part whole value

theorem Node.Part.trans {whole middle node : Node} (outer : Part whole middle)
    (inner : Part middle node) : Part whole node := by
  induction inner with
  | root => exact outer
  | property _ member induct => exact .property induct member
  | value _ member induct => exact .value induct member

@[simp]
theorem Chunk.node_raw (chunk : Chunk) : chunk.node.raw = chunk.raw := by
  rw [Chunk.node]
  split <;> rfl

@[simp]
theorem Chunk.node_start (chunk : Chunk) : chunk.node.start = chunk.start := by
  rw [Chunk.node]
  split <;> rfl

/-- An object is what was looked into as a chunk with braces. -/
theorem Chunk.exists_of_node_eq_object {chunk : Chunk} {raw : Text} {start : Nat}
    {cursor : Option Nat} {properties : List (Option Key × Node)}
    (looked : chunk.node = .object raw start cursor properties) :
    ∃ body : Source, chunk.body? = some (.brace, body) ∧ cursor = body.properties.2 ∧
      properties = body.properties.1.map fun property => (property.1, property.2.node) := by
  cases found : chunk.body? with
  | none =>
      rw [chunk.node_of_body?_eq_none found] at looked
      contradiction
  | some pair =>
      rcases pair with ⟨delimiter, body⟩
      by_cases brace : delimiter = .brace
      · subst brace
        rw [chunk.node_of_body?_eq_brace found] at looked
        cases looked
        exact ⟨body, rfl, rfl, rfl⟩
      · rw [chunk.node_of_body?_of_ne_brace found brace] at looked
        contradiction

/-- An array is what was looked into as a chunk with other brackets. -/
theorem Chunk.exists_of_node_eq_array {chunk : Chunk} {raw : Text} {start : Nat}
    {cursor : Option Nat} {values : List Node}
    (looked : chunk.node = .array raw start cursor values) :
    ∃ (delimiter : Delimiter) (body : Source), chunk.body? = some (delimiter, body) ∧
      delimiter ≠ .brace ∧ cursor = body.values.2 ∧ values = body.values.1.map Chunk.node := by
  cases found : chunk.body? with
  | none =>
      rw [chunk.node_of_body?_eq_none found] at looked
      contradiction
  | some pair =>
      rcases pair with ⟨delimiter, body⟩
      by_cases brace : delimiter = .brace
      · subst brace
        rw [chunk.node_of_body?_eq_brace found] at looked
        contradiction
      · rw [chunk.node_of_body?_of_ne_brace found brace] at looked
        cases looked
        exact ⟨delimiter, body, rfl, brace, rfl, rfl⟩

/-- Each node of a tree was looked into as a chunk of the text. Only the root starts where the
tree starts. -/
theorem Chunk.Lies.exists_of_part {text : Text} {least : Nat} {chunk : Chunk}
    (lies : chunk.Lies text least) {node : Node} (part : Node.Part chunk.node node) :
    ∃ inner : Chunk, inner.Lies text least ∧ inner.node = node ∧
      (inner = chunk ∨ chunk.start < inner.start) := by
  induction part with
  | root => exact ⟨chunk, lies, rfl, .inl rfl⟩
  | @property raw start cursor properties property _ member induct =>
      rcases induct with ⟨outer, within, looked, place⟩
      obtain ⟨body, found, _, rfl⟩ := outer.exists_of_node_eq_object looked
      rcases List.mem_map.mp member with ⟨taken, among, rfl⟩
      have inside := ((within.body found).of_mem_properties among).2
      have behind := inside.least
      have outerLeast := within.least
      refine ⟨taken.2, ⟨by omega, inside.shows, inside.framed⟩, rfl, .inr ?_⟩
      rcases place with rfl | later <;> omega
  | @value raw start cursor values value _ member induct =>
      rcases induct with ⟨outer, within, looked, place⟩
      obtain ⟨delimiter, body, found, _, _, rfl⟩ := outer.exists_of_node_eq_array looked
      rcases List.mem_map.mp member with ⟨taken, among, rfl⟩
      have inside := (within.body found).of_mem_values among
      have behind := inside.least
      have outerLeast := within.least
      refine ⟨taken, ⟨by omega, inside.shows, inside.framed⟩, rfl, .inr ?_⟩
      rcases place with rfl | later <;> omega

/-! ## The last value of an array -/

/-- The last element of a body that ends with a visible character reaches to the end, if each
element ends where the next one starts. -/
theorem Source.exists_last_element {α : Type} {take : Source → α × Source}
    {shortens : ∀ source, source.raw ≠ [] → (take source).2.raw.length < source.raw.length}
    {stop : α → Nat}
    (reaches : ∀ part : Source, part.raw ≠ [] →
      ((take part).2.raw = [] ∧ stop (take part).1 = part.start + part.raw.length) ∨
        ((take part).2.raw.getLast? = part.raw.getLast? ∧
          (take part).2.start + (take part).2.raw.length = part.start + part.raw.length))
    {source : Source} {c : Char} (ends : source.raw.getLast? = some c)
    (visible : isBlank c = false) :
    ∃ last, (source.elements take shortens).1.getLast? = some last ∧
      stop last = source.start + source.raw.length := by
  fun_induction elements take shortens source with
  | case1 source blank =>
      have shown := Text.not_isBlank_of_mem (List.mem_of_getLast? ends) visible
      rw [blank] at shown
      contradiction
  | case2 source _ taken others induct =>
      have present : source.raw ≠ [] := by
        rintro empty
        rw [empty] at ends
        contradiction
      rcases reaches source present with ⟨finished, stops⟩ | ⟨same, whole⟩
      · have none : others.1 = [] := by
          have blank : (take source).2.raw.isBlank = true := by
            rw [finished]
            rfl
          simp only [others, taken]
          rw [elements, dif_pos blank]
        refine ⟨taken.1, ?_, stops⟩
        simp only [none, List.getLast?_singleton]
      · obtain ⟨last, found, stops⟩ := induct (same.trans ends)
        refine ⟨last, ?_, stops.trans whole⟩
        simp only [List.getLast?_cons, found, others, Option.getD_some]

/-- The last value of a body that ends with a visible character reaches to the end. -/
theorem Source.exists_last_value {source : Source} {c : Char}
    (ends : source.raw.getLast? = some c) (visible : isBlank c = false) :
    ∃ last, source.values.1.getLast? = some last ∧
      last.start + last.raw.length = source.start + source.raw.length := by
  refine @exists_last_element Chunk takeValue takeValue_raw_length_lt
    (fun chunk => chunk.start + chunk.raw.length) ?_ source c ends visible
  intro part present
  have rest : part.takeValue.2.raw = part.raw.drop (part.scanValue.1 + 1) := rfl
  have raw : part.takeValue.1.raw = part.raw.take (part.scanValue.1 + 1) := rfl
  by_cases finished : part.raw.length ≤ part.scanValue.1 + 1
  · refine .inl ⟨?_, ?_⟩
    · rw [rest, List.drop_of_length_le finished]
    · rw [raw, List.take_of_length_le finished]
      rfl
  · refine .inr ⟨?_, ?_⟩
    · rw [rest, List.getLast?_drop, if_neg finished]
    · rw [rest, List.length_drop]
      change part.start + (part.scanValue.1 + 1) + _ = _
      omega

/-- An array that reaches to the end of a text with a closing brace there is not closed, so that
its last value reaches to the end, too. -/
theorem Chunk.Lies.exists_last_value {text : Text} {least : Nat} {chunk : Chunk}
    (lies : chunk.Lies text least) {raw : Text} {start : Nat} {cursor : Option Nat}
    {values : List Node} (looked : chunk.node = .array raw start cursor values)
    (braced : text.getLast? = some '}') (reaches : text.length ≤ chunk.start + chunk.raw.length) :
    ∃ last, values.getLast? = some last ∧ last.stop = chunk.start + chunk.raw.length := by
  obtain ⟨delimiter, body, found, noBrace, _, rfl⟩ := chunk.exists_of_node_eq_array looked
  obtain ⟨frame, _, _, startsAt, afterOpener, whole, inner⟩ := chunk.exists_of_body? found
  have ends : chunk.raw.getLast? = some '}' := by
    rw [← braced]
    refine lies.shows.getLast?_eq ?_ reaches
    rw [whole]
    simp
  have opener : delimiter.opener ≠ '}' := by
    cases delimiter <;> decide
  have closer : delimiter.closer ≠ '}' := by
    cases delimiter <;> first | decide | contradiction
  have behind : afterOpener.getLast? = some '}' := by
    rw [whole, List.getLast?_append, List.getLast?_cons] at ends
    cases last : afterOpener.getLast? with
    | none =>
        rw [last] at ends
        exact absurd (Option.some.inj ends) opener
    | some c =>
        rw [last] at ends
        exact ends
  have unclosed : body.raw = afterOpener := by
    split at inner
    · exfalso
      have kept : Text.trimRight afterOpener = afterOpener := by
        refine Text.trimRight_of_getLast? fun c same => ?_
        rw [behind] at same
        rw [← Option.some.inj same]
        rfl
      simp only [beforeCloser?, behind, Option.some.injEq, Char.reduceEq, if_false, kept] at inner
      split at inner
      · rename_i same
        exact closer same.symm
      · contradiction
    · exact inner
  obtain ⟨last, isLast, stops⟩ := body.exists_last_value (unclosed ▸ behind) rfl
  refine ⟨last.node, ?_, ?_⟩
  · rw [List.getLast?_map, isLast, Option.map_some]
  · have length : chunk.raw.length = chunk.raw.leadingBlanks.length + (afterOpener.length + 1) := by
      rw [← List.length_cons (a := delimiter.opener), ← List.length_append, ← whole]
    rw [Node.stop, Chunk.node_raw, Chunk.node_start, stops, startsAt, unclosed]
    omega

end Typeahead.Selector
