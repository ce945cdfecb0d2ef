import Typeahead.Selector.Source

/-!
# The tree of a selector

A selector text is read into a tree of objects, arrays and opaque spans. Every node keeps the
exact text that it was read from and its place. A span knows the caret as an offset. An object
or array knows it as the index of the element that holds the caret; the index equals the number
of elements when the caret stands behind the last one.

Reading never fails and always ends: each element shortens the rest of a body, and a body is
shorter than the chunk around it.
-/

namespace Typeahead.Selector

/-- A node of the tree. -/
inductive Node where
  /-- A span that is neither an object nor an array. -/
  | span (raw : Text) (start : Nat) (cursor : Option Nat)
  | object (raw : Text) (start : Nat) (cursor : Option Nat)
      (properties : List (Option Key × Node))
  | array (raw : Text) (start : Nat) (cursor : Option Nat) (values : List Node)

namespace Node

/-- The text that a node was read from. -/
def raw : Node → Text
  | span raw .. | object raw .. | array raw .. => raw

/-- The place of a node in the text. -/
def start : Node → Nat
  | span _ start .. | object _ start .. | array _ start .. => start

/-- The caret of a node: an offset in a span, an index in an object or array. -/
def cursor : Node → Option Nat
  | span _ _ cursor | object _ _ cursor _ | array _ _ cursor _ => cursor

/-- The end of a node in the text. -/
def stop (node : Node) : Nat :=
  node.start + node.raw.length

/-- Prove a statement about all nodes from its truth for the elements of each. -/
theorem induction {motive : Node → Prop}
    (span : ∀ raw start cursor, motive (span raw start cursor))
    (object : ∀ raw start cursor properties,
      (∀ property ∈ properties, motive property.2) →
        motive (object raw start cursor properties))
    (array : ∀ raw start cursor values,
      (∀ value ∈ values, motive value) → motive (array raw start cursor values)) :
    ∀ node, motive node
  | .span raw start cursor => span raw start cursor
  | .object raw start cursor properties =>
      object raw start cursor properties fun property member =>
        have : sizeOf property.2 < sizeOf properties := by
          have bound := List.sizeOf_lt_of_mem member
          cases property
          simp only [Prod.mk.sizeOf_spec] at bound ⊢
          omega
        induction span object array property.2
  | .array raw start cursor values =>
      array raw start cursor values fun value member =>
        have : sizeOf value < sizeOf values := List.sizeOf_lt_of_mem member
        induction span object array value

end Node

/-! ## Elements of a body -/

namespace Source

/-- Take elements until only blanks are left, with the index of the one that holds the caret:
the one at whose end the caret is lost. -/
def elements {α : Type} (take : Source → α × Source)
    (shortens : ∀ source, source.raw ≠ [] →
      (take source).2.raw.length < source.raw.length)
    (source : Source) : List α × Option Nat :=
  if blank : source.raw.isBlank then
    ([], source.caret.map fun _ => 0)
  else
    let taken := take source
    let others := elements take shortens taken.2
    (taken.1 :: others.1, source.caret.map fun _ => others.2.elim 0 (· + 1))
termination_by source.raw.length
decreasing_by
  apply shortens
  intro empty
  simp [empty, Text.isBlank] at blank

/-- The properties of the body of an object. -/
def properties (body : Source) : List (Option Key × Chunk) × Option Nat :=
  body.elements takeProperty takeProperty_raw_length_lt

/-- The values of the body of an array. -/
def values (body : Source) : List Chunk × Option Nat :=
  body.elements takeValue takeValue_raw_length_lt

/-- Each element was taken from a source that is no longer than the body. -/
theorem exists_take_of_mem_elements {α : Type} {take : Source → α × Source}
    {shortens : ∀ source, source.raw ≠ [] →
      (take source).2.raw.length < source.raw.length}
    {source : Source} {element : α}
    (member : element ∈ (source.elements take shortens).1) :
    ∃ part : Source, part.raw.length ≤ source.raw.length ∧ (take part).1 = element := by
  induction length : source.raw.length using Nat.strongRecOn generalizing source with
  | _ bound induct =>
      rw [elements] at member
      split at member
      · simp at member
      · rename_i blank
        simp only [List.mem_cons] at member
        rcases member with rfl | later
        · exact ⟨source, by omega, rfl⟩
        · have present : source.raw ≠ [] := by
            intro empty
            simp [empty, Text.isBlank] at blank
          have shorter := shortens source present
          obtain ⟨part, fits, taken⟩ := induct _ (by omega) later rfl
          exact ⟨part, by omega, taken⟩

theorem length_le_of_mem_properties {body : Source} {property : Option Key × Chunk}
    (member : property ∈ body.properties.1) : property.2.raw.length ≤ body.raw.length := by
  obtain ⟨part, fits, rfl⟩ := exists_take_of_mem_elements member
  have bound := part.takeKey.2.cut_chunk_length_le part.takeKey.2.scanValue
  have consumed := part.takeKey_raw_length_le
  change (part.takeKey.2.takeValue.1).raw.length ≤ body.raw.length
  simp only [takeValue]
  omega

theorem length_le_of_mem_values {body : Source} {value : Chunk}
    (member : value ∈ body.values.1) : value.raw.length ≤ body.raw.length := by
  obtain ⟨part, fits, rfl⟩ := exists_take_of_mem_elements member
  have bound := part.cut_chunk_length_le part.scanValue
  simp only [takeValue]
  omega

end Source

/-! ## Trees -/

/-- Look into a chunk: one with a body becomes an object or an array. -/
def Chunk.node (chunk : Chunk) : Node :=
  match _found : chunk.body? with
  | none => .span chunk.raw chunk.start chunk.cursor
  | some (.brace, body) =>
      let elements := body.properties
      .object chunk.raw chunk.start elements.2
        (elements.1.attach.map fun ⟨property, _⟩ => (property.1, property.2.node))
  | some (_, body) =>
      let elements := body.values
      .array chunk.raw chunk.start elements.2
        (elements.1.attach.map fun ⟨value, _⟩ => value.node)
termination_by chunk.raw.length
decreasing_by
  · rename_i member
    have shorter := Chunk.body?_length_lt _found
    have bound := Source.length_le_of_mem_properties member
    omega
  · rename_i member
    have shorter := Chunk.body?_length_lt _found
    have bound := Source.length_le_of_mem_values member
    omega

theorem Chunk.node_of_body?_eq_none {chunk : Chunk} (absent : chunk.body? = none) :
    chunk.node = .span chunk.raw chunk.start chunk.cursor := by
  rw [node]
  split
  · rfl
  all_goals simp_all

theorem Chunk.node_of_body?_eq_brace {chunk : Chunk} {body : Source}
    (found : chunk.body? = some (.brace, body)) :
    chunk.node = .object chunk.raw chunk.start body.properties.2
      (body.properties.1.map fun property => (property.1, property.2.node)) := by
  rw [node]
  split
  · simp_all
  · rename_i other same
    rw [found] at same
    cases same
    simp only [List.map_attach_eq_pmap, List.pmap_eq_map]
  · rename_i delimiter other distinct same
    rw [found] at same
    cases same
    exact absurd rfl (distinct ·)

theorem Chunk.node_of_body?_of_ne_brace {chunk : Chunk} {delimiter : Delimiter} {body : Source}
    (found : chunk.body? = some (delimiter, body)) (other : delimiter ≠ .brace) :
    chunk.node = .array chunk.raw chunk.start body.values.2 (body.values.1.map Chunk.node) := by
  rw [node]
  split
  · simp_all
  · rename_i inner same
    rw [found] at same
    cases same
    contradiction
  · rename_i first inner _ same
    rw [found] at same
    cases same
    simp only [List.map_attach_eq_pmap, List.pmap_eq_map]

theorem Chunk.node_of_body?_eq_bracket {chunk : Chunk} {body : Source}
    (found : chunk.body? = some (.bracket, body)) :
    chunk.node = .array chunk.raw chunk.start body.values.2 (body.values.1.map Chunk.node) :=
  chunk.node_of_body?_of_ne_brace found nofun

/-- Read a text with a caret, which is absent when it is negative. What follows a comma outside
all delimiters is not read. -/
def parse (text : Text) (caret : Int) : Node :=
  Source.takeValue ⟨text, 0, if caret < 0 then none else some caret⟩ |>.1.node

end Typeahead.Selector
