import Typeahead.Proofs.Selector.Relocation
import Typeahead.Proofs.Selector.RoundTrip
import Typeahead.Proofs.Selector.Walk

/-!
# Whether the caret stands in what it points at

The walk goes to the element at the index of the caret. An element of an array that holds the caret
spans it. A property can hold the caret in front of its value: in the blanks or on the quotes around
the name of its key, or between the name and the colon. There the walk goes on into the value, and a
value that needs no caret of its own is what the caret points at, although it starts behind the
caret.
-/

namespace Typeahead.Selector

/-- The caret stands at one of the ends of a node or between them. -/
def Node.Spans (caret : Nat) (node : Node) : Prop :=
  node.start ≤ caret ∧ caret ≤ node.stop

/-- The property of a value holds the caret, but the caret stands in front of the value and not in
the name of the key. -/
def Node.HoldsAhead (tree : Node) (caret : Nat) (value : Node) : Prop :=
  ∃ raw start index properties key?,
    tree.Part (.object raw start (some index) properties) ∧
      properties[index]? = some (key?, value) ∧
      (∀ key ∈ key?, key.start ≤ caret ∧ key.cursor = none) ∧ caret < value.start

/-! ## Elements that hold the caret -/

namespace Source.Tracks

variable {caret stop : Nat} {source : Source}

/-- The element that holds the caret was taken from a source that starts at the caret or in front of
it, and what is left behind the element starts behind the caret. -/
theorem exists_of_index {α : Type} {take : Source → α × Source}
    {shortens : ∀ source, source.raw ≠ [] → (take source).2.raw.length < source.raw.length}
    (keeps : ∀ {part : Source}, part.Tracks caret stop → (take part).2.Tracks caret stop)
    (tracks : source.Tracks caret stop) {index : Nat} {element : α}
    (cursor : (source.elements take shortens).2 = some index)
    (here : (source.elements take shortens).1[index]? = some element) :
    ∃ part : Source, part.Tracks caret stop ∧ (take part).1 = element ∧ part.start ≤ caret ∧
      caret ≤ stop ∧ caret < (take part).2.start := by
  fun_induction elements take shortens source generalizing index with
  | case1 source blank => contradiction
  | case2 source visible taken others =>
      rename_i inductionHypothesis
      cases index with
      | zero =>
          obtain ⟨present, lost⟩ := index_eq_zero_iff.mp cursor
          obtain ⟨least, most⟩ := tracks.isSome_caret_iff.mp present
          have further : ¬((take source).2.start ≤ caret ∧ caret ≤ stop) := by
            rw [← (keeps tracks).isSome_caret_iff, ← isSome_elements take shortens,
              Option.not_isSome_iff_eq_none]
            exact lost
          exact ⟨source, tracks, Option.some.inj here, least, most, by omega⟩
      | succ index =>
          exact inductionHypothesis (keeps tracks) (index_eq_succ_iff.mp cursor).2 here

/-- A value ends at the caret or behind it if what is left starts behind the caret. -/
theorem le_stop_takeValue (tracks : source.Tracks caret stop) (most : caret ≤ stop)
    (lost : caret < source.takeValue.2.start) : caret ≤ source.takeValue.1.node.stop := by
  have length := tracks.length
  have taken : source.takeValue.1.raw.length = min (source.scanValue.1 + 1) source.raw.length :=
    List.length_take
  have behind : source.takeValue.2.start = source.start + (source.scanValue.1 + 1) := rfl
  rw [Node.stop, Chunk.node_start, Chunk.node_raw, taken]
  change caret ≤ source.start + _
  omega

/-- A container with an index of the caret spans the caret. -/
theorem spans_of_index {α : Type} {take : Source → α × Source}
    {shortens : ∀ source, source.raw ≠ [] → (take source).2.raw.length < source.raw.length}
    (tracks : source.Tracks caret stop) {delimiter : Delimiter} {body : Source}
    (found : source.takeValue.1.body? = some (delimiter, body)) {index : Nat}
    (cursor : (body.elements take shortens).2 = some index) :
    source.takeValue.1.node.Spans caret := by
  have present : body.caret.isSome := by
    rw [← isSome_elements take shortens, cursor]
    rfl
  obtain ⟨least, most⟩ := (tracks.body found).isSome_caret_iff.mp present
  have inside := Chunk.openerLength_add_le found
  obtain ⟨_, _, _, start, _⟩ := Chunk.exists_of_body? found
  rw [Node.Spans, Node.stop, Chunk.node_start, Chunk.node_raw]
  rw [Chunk.openerLength] at inside
  omega

end Source.Tracks

/-! ## Nodes -/

section

variable {tree : Node} {source : Source} {caret stop : Nat} {raw : Text} {start index : Nat}

theorem spans_of_object (tracks : source.Tracks caret stop)
    {properties : List (Option Key × Node)}
    (part : source.takeValue.1.node.Part (.object raw start (some index) properties)) :
    (Node.object raw start (some index) properties).Spans caret := by
  obtain ⟨origin, ⟨_, originTracks⟩, looked⟩ := (keeps_tracks caret).exists_source ⟨_, tracks⟩ part
  obtain ⟨body, found, cursor, _⟩ := Chunk.exists_of_node_eq_object looked
  rw [← looked]
  exact originTracks.spans_of_index found cursor.symm

theorem spans_of_array (tracks : source.Tracks caret stop) {values : List Node}
    (part : source.takeValue.1.node.Part (.array raw start (some index) values)) :
    (Node.array raw start (some index) values).Spans caret := by
  obtain ⟨origin, ⟨_, originTracks⟩, looked⟩ := (keeps_tracks caret).exists_source ⟨_, tracks⟩ part
  obtain ⟨_, body, found, _, cursor, _⟩ := Chunk.exists_of_node_eq_array looked
  rw [← looked]
  exact originTracks.spans_of_index found cursor.symm

/-- The element at the index of the caret of an array spans the caret. -/
theorem spans_of_element (tracks : source.Tracks caret stop) {values : List Node} {value : Node}
    (part : source.takeValue.1.node.Part (.array raw start (some index) values))
    (here : values[index]? = some value) : value.Spans caret := by
  obtain ⟨origin, ⟨_, originTracks⟩, looked⟩ := (keeps_tracks caret).exists_source ⟨_, tracks⟩ part
  obtain ⟨_, body, found, _, cursor, rfl⟩ := Chunk.exists_of_node_eq_array looked
  rw [List.getElem?_map, Option.map_eq_some_iff] at here
  obtain ⟨chunk, taken, rfl⟩ := here
  obtain ⟨inner, innerTracks, rfl, least, most, lost⟩ :=
    (originTracks.body found).exists_of_index (·.takeValue) cursor.symm taken
  exact ⟨by rw [Chunk.node_start]; exact least, innerTracks.le_stop_takeValue most lost⟩

/-- The value of the property at the index of the caret of an object ends at the caret or behind it,
and the key of the property starts at the caret or in front of it. -/
theorem le_stop_of_property (tracks : source.Tracks caret stop)
    {properties : List (Option Key × Node)} {key? : Option Key} {value : Node}
    (part : source.takeValue.1.node.Part (.object raw start (some index) properties))
    (here : properties[index]? = some (key?, value)) :
    caret ≤ value.stop ∧ ∀ key ∈ key?, key.start ≤ caret := by
  obtain ⟨origin, ⟨_, originTracks⟩, looked⟩ := (keeps_tracks caret).exists_source ⟨_, tracks⟩ part
  obtain ⟨body, found, cursor, rfl⟩ := Chunk.exists_of_node_eq_object looked
  rw [List.getElem?_map, Option.map_eq_some_iff] at here
  obtain ⟨property, taken, same⟩ := here
  obtain ⟨rfl, rfl⟩ := Prod.mk.inj same
  obtain ⟨inner, innerTracks, rfl, least, most, lost⟩ :=
    (originTracks.body found).exists_of_index (·.takeProperty) cursor.symm taken
  refine ⟨innerTracks.takeKey.le_stop_takeValue most lost, fun key isKey => ?_⟩
  rw [(Source.takesKey_of_eq_some isKey).start]
  exact least

end

/-! ## The focus -/

/-- What the caret of a text points at spans the caret, unless it is the value of a property that
holds the caret in front of its value. This is never so for names. -/
theorem spans_of_locate_iff {text : Text} {caret : Nat} (inside : caret ≤ text.length)
    {focus : Focus} (located : (parse text caret).locate = some focus) :
    (focus.context.Spans caret ↔ ¬(parse text caret).HoldsAhead caret focus.context) ∧
      (focus.sought.kind ≠ .value → focus.context.Spans caret) := by
  obtain ⟨tracks, parsed⟩ := tracks_of_inside inside
  have arises := Node.arises_of_locate located
  rw [parsed] at arises ⊢
  have exclusive : focus.context.Spans caret →
      ¬(Source.mk text 0 (some (caret : Int))).takeValue.1.node.HoldsAhead caret focus.context := by
    rintro ⟨behind, _⟩ ⟨_, _, _, _, _, _, _, _, ahead⟩
    omega
  cases arises with
  | name part named =>
      have spans := spans_of_object tracks part
      rw [← context_of_locateName named] at spans
      exact ⟨⟨exclusive, fun _ => spans⟩, fun _ => spans⟩
  | element part found =>
      have spans : focus.context.Spans caret := by
        rcases context_of_locateElement found with here | behind
        · exact spans_of_element tracks part here
        · rw [behind]
          exact spans_of_array tracks part
      exact ⟨⟨exclusive, fun _ => spans⟩, fun _ => spans⟩
  | value part here outside written =>
      subst written
      obtain ⟨stop, starts⟩ := le_stop_of_property tracks part here
      refine ⟨⟨exclusive, fun notAhead => ⟨?_, stop⟩⟩, fun other => absurd rfl other⟩
      refine Nat.le_of_not_lt fun ahead => notAhead ⟨_, _, _, _, _, part, here,
        fun key isKey => ⟨starts key isKey, ?_⟩, ahead⟩
      rw [Option.mem_def.mp isKey] at outside
      exact outside

/-- A selector with a blank in front of its key. -/
def spacedSelector : Written :=
  .object [] [(⟨[' '], .bare ['a'], [], true⟩, .atom [' '] ['1'] [])] none []

theorem spacedSelector_wellFormed : spacedSelector.WellFormed := by
  have label : (Label.bare ['a']).WellFormed := .bare rfl (Acceptance.plain_of_isBareName rfl)
  have one : IsAtom ['1'] := isAtom_singleton rfl rfl rfl (by decide)
  have value : (Written.atom [' '] ['1'] []).WellFormed := .atom rfl rfl (.inr one)
  exact .object rfl rfl (by simp) ⟨⟨rfl, label, rfl⟩, by simp, trivial⟩
    (List.forall_mem_singleton.mpr value)

/-- In front of the key the caret points at the value. -/
theorem locate_spacedSelector :
    (parse "\x7b a: 1\x7d".toList 1).locate =
      some (.atValue (.span [' ', '1'] 4 none) ['a'] .sampled) := by
  have read : parse "\x7b a: 1\x7d".toList 1 = spacedSelector.node 0 (some 1) false :=
    spacedSelector_wellFormed.parse 1
  rw [read, Node.locate, spacedSelector, Written.node, locateSelector_object]
  change locateFieldValue ['a'] (Node.span _ _ _) = _
  rw [locateFieldValue]
  rfl

theorem holdsAhead_spacedSelector :
    1 ≤ "\x7b a: 1\x7d".toList.length ∧
      (parse "\x7b a: 1\x7d".toList 1).locate =
        some (.atValue (.span [' ', '1'] 4 none) ['a'] .sampled) ∧
      (parse "\x7b a: 1\x7d".toList 1).HoldsAhead 1 (.span [' ', '1'] 4 none) := by
  have focused := spans_of_locate_iff (by decide) locate_spacedSelector
  refine ⟨by decide, locate_spacedSelector, Classical.byContradiction fun notAhead => ?_⟩
  exact absurd (focused.1.mpr notAhead).1 (by decide)

/-- Not everything a caret points at spans the caret. -/
theorem exists_locate_not_spans :
    ∃ (text : Text) (caret : Nat) (focus : Focus), caret ≤ text.length ∧
      (parse text caret).locate = some focus ∧ ¬focus.context.Spans caret :=
  ⟨_, 1, _, by decide, locate_spacedSelector, fun spans => absurd spans.1 (by decide)⟩

end Typeahead.Selector
