import Typeahead.Proofs.Acceptance.KeptFocus
import Typeahead.Proofs.Acceptance.Values
import Typeahead.Proofs.Completion.Totality
import Typeahead.Proofs.Completion.Values

/-!
# Accepting what is offered

Everything that is offered for a text can be accepted in it, however malformed the text is. A value
expands, and it replaces a typed value or becomes a new element. A name replaces the name of a key
that has the caret, or becomes a new property. A new element or property has its place behind the
opener of its container. So no name is accepted by only moving the caret.
-/

namespace Typeahead.Acceptance

open Selector

/-! ## Ways to accept -/

/-- A container has a place for a new element: its opener is the first of its kind, behind the
blanks, and the place behind its elements lies in the text. -/
structure HasPlace (base : Text) (container : Node) (delimiter : Delimiter) : Prop where
  opener : container.raw.indexOf? delimiter.opener = some container.raw.leadingBlanks.length
  inside : (placeIn base container delimiter).position ≤ base.length

/-- The ways in which a completion of a kind is accepted at a node, each with its edit. -/
inductive Accepts (base completion : Text) : CompletionKind → Node → Edit → Prop
  | value {node : Node} {expansion : Expansion} :
      expand completion = .ok expansion → ¬LacksElement node →
        Accepts base completion .value node (replaceValue node expansion)
  | element {array : Node} {expansion : Expansion} :
      expand completion = .ok expansion → LacksElement array → HasPlace base array .bracket →
        Accepts base completion .value array (insertElement base array .bracket expansion)
  | name {kind : CompletionKind} {raw : Text} {start index offset : Nat}
      {properties : List (Option Key × Node)} {key : Key} {value : Node} :
      kind = .field ∨ kind = .operator → properties[index]? = some (some key, value) →
        key.cursor = some offset →
          Accepts base completion kind (.object raw start (some index) properties)
            (replaceName key offset completion)
  | property {raw : Text} {start index : Nat} {properties : List (Option Key × Node)} :
      properties[index]? = none →
        HasPlace base (.object raw start (some index) properties) .brace →
          Accepts base completion .newProperty (.object raw start (some index) properties)
            (insertProperty base completion (.object raw start (some index) properties) properties)

variable {text completion : Text} {least : Nat} {chunk : Chunk}

/-- A container that was looked into as a chunk of the text has a place. -/
theorem hasPlace_of_body? (lies : chunk.Lies text least) {delimiter : Delimiter} {body : Source}
    (found : chunk.body? = some (delimiter, body)) : HasPlace text chunk.node delimiter where
  opener := by
    rw [Chunk.node_raw]
    exact indexOf?_opener found
  inside := by
    have bounds := (placeIn_position_bounds text chunk.node delimiter).2
    have elements := behindElements_le_stop found
    have stop : chunk.node.stop ≤ text.length := by
      rw [Node.stop, Chunk.node_start, Chunk.node_raw]
      exact lies.shows.stop_le (raw_ne_nil_of_body? found)
    omega

/-! ## Values -/

/-- A value that expands is accepted at each node of the tree. -/
theorem exists_accepts_value (lies : chunk.Lies text least)
    (expands : ∃ expansion, expand completion = .ok expansion) :
    ∃ edit, accept text completion .value chunk.node = .ok edit ∧
      Accepts text completion .value chunk.node edit := by
  obtain ⟨expansion, expanded⟩ := expands
  by_cases lacks : LacksElement chunk.node
  · obtain ⟨raw, start, cursor, values, looked⟩ := lacks.exists_array
    obtain ⟨delimiter, body, found, noBrace, _⟩ := chunk.exists_of_node_eq_array looked
    obtain rfl := (lies.delimiter found).resolve_left noBrace
    exact ⟨_, accept_of_lacksElement expanded lacks,
      .element expanded lacks (hasPlace_of_body? lies found)⟩
  · exact ⟨_, accept_of_not_lacksElement expanded lacks, .value expanded lacks⟩

/-- What is offered as a value is known. -/
theorem isKnown_of_mem_textsAt {tree : Node} {focus : Focus} (located : tree.locate = some focus)
    {typed : Text} {choices : Choices} (sought : focus.sought = .value typed choices)
    {schema : Schema} (member : completion ∈ Completion.textsAt focus schema) :
    Completion.IsKnown completion := by
  rw [Completion.textsAt, sought] at member
  rcases (Node.arises_of_locate located).given sought with rfl | ⟨operator, value, offers⟩
  · exact Completion.isKnown_of_mem_valueTexts member
  · exact Completion.isKnown_of_mem_operatorChoices offers member

/-! ## Names -/

/-- A name is accepted in the object that it is written in. -/
theorem exists_accepts_name (lies : chunk.Lies text least) {raw path : Text} {start index : Nat}
    {properties : List (Option Key × Node)} {vocabulary : Vocabulary} {focus : Focus}
    (looked : chunk.node = .object raw start (some index) properties)
    (named : locateName chunk.node properties index vocabulary path = some focus) :
    ∃ edit, accept text completion focus.sought.kind chunk.node = .ok edit ∧
      Accepts text completion focus.sought.kind chunk.node edit := by
  obtain ⟨_, ⟨absent, others, sought⟩ | ⟨key, value, offset, others, here, cursor, sought⟩⟩ :=
    of_locateName named
  · obtain ⟨body, found, _⟩ := chunk.exists_of_node_eq_object looked
    have hasPlace := hasPlace_of_body? lies found
    rw [looked] at hasPlace ⊢
    rw [sought]
    refine ⟨_, ?_, .property absent hasPlace⟩
    exact congrArg Except.ok (acceptName_of_no_property absent)
  · have isName : focus.sought.kind = .field ∨ focus.sought.kind = .operator := by
      rw [sought]
      cases vocabulary
      · exact .inl rfl
      · exact .inr rfl
    have edit : acceptName text completion false chunk.node =
        replaceName key offset completion := by
      rw [looked]
      exact acceptName_of_key here cursor
    refine ⟨replaceName key offset completion, ?_, ?_⟩
    · rw [← edit]
      rcases isName with kind | kind <;> rw [kind] <;> rfl
    · rw [looked]
      exact .name isName here cursor

/-! ## Completions -/

/-- Each completion that is offered for a text can be accepted in it: its value is no placeholder
without a template, a new element has its place behind an opener, and a name is written in a key or
in a new property. -/
theorem exists_accepts_of_offered {text : Text} {caret : Int} {schema? : Option Schema}
    {completions : List Completion}
    (offered : Completion.all (parse text caret) schema? = .ok completions)
    {completion : Completion} (member : completion ∈ completions) :
    ∃ edit, accept text completion.text completion.kind completion.context = .ok edit ∧
      Accepts text completion.text completion.kind completion.context edit ∧
      (completion.kind = .value → isPlaceholder completion.text →
        ∃ template, (completion.text, template) ∈ templates) := by
  cases schema? with
  | none =>
      cases offered
      contradiction
  | some schema =>
      cases located : (parse text caret).locate with
      | none =>
          rw [Completion.all_of_not_located located] at offered
          cases offered
          contradiction
      | some focus =>
          obtain ⟨among, kind, context⟩ := of_mem_completions located offered member
          obtain ⟨chunk, lies, looked⟩ := exists_chunk_of_locate located
          rw [kind, context, ← looked]
          cases sought : focus.sought with
          | value typed choices =>
              have known := isKnown_of_mem_textsAt located sought among
              have expands := (exists_expand_iff completion.text).mpr known.exists_template
              obtain ⟨edit, accepted, accepts⟩ := exists_accepts_value lies expands
              exact ⟨edit, accepted, accepts, fun _ => known.exists_template⟩
          | name vocabulary typed? others =>
              obtain ⟨raw, start, index, properties, path, isObject, named⟩ :=
                (Node.arises_of_locate located).exists_locateName sought
              rw [← looked] at isObject named
              obtain ⟨edit, accepted, accepts⟩ :=
                @exists_accepts_name _ completion.text _ _ lies _ _ _ _ _ _ _ isObject named
              rw [sought] at accepted accepts
              refine ⟨edit, accepted, accepts, fun isValue => ?_⟩
              cases vocabulary <;> cases typed? <;> contradiction

/-! ## A placeholder -/

/-- A field whose operator has no value yet. -/
def sizeSelector : Written :=
  .object [] [(⟨[], .bare ['a'], [], true⟩,
    .object [] [(⟨[], .bare "$size", [], true⟩, .atom [] [] [])] none [])] none []

/-- The empty value of the operator. -/
def sizeFocus : Focus where
  sought := .value [] (.listed ["(number)".toList] false)
  path := ['a']
  context := .span [] 10 (some 0)

theorem locate_sizeSelector : (parse sizeSelector.text 10).locate = some sizeFocus := by
  have field : (Label.bare ['a']).WellFormed := @labelFor_wellFormed '"' rfl ['a']
  have operator : (Label.bare "$size").WellFormed := @labelFor_wellFormed '"' rfl "$size"
  have inner : (Written.object [] [(⟨[], .bare "$size", [], true⟩, .atom [] [] [])]
      none []).WellFormed :=
    .object rfl rfl (by simp) ⟨⟨rfl, operator, rfl⟩, by simp, trivial⟩
      (List.forall_mem_singleton.mpr (.atom rfl rfl (.inl rfl)))
  have wellFormed : sizeSelector.WellFormed :=
    .object rfl rfl (by simp) ⟨⟨rfl, field, rfl⟩, by simp, trivial⟩
      (List.forall_mem_singleton.mpr inner)
  rw [wellFormed.parse, Node.locate, sizeSelector, Written.node, locateSelector_object]
  change locateFieldValue ['a'] (Node.object _ _ _ _) = _
  rw [locateFieldValue, locateOperators_object]
  rfl

/-- The placeholder for a number is offered, and accepted by its template. -/
theorem exists_accepts_of_offered_size :
    ∃ completion : Completion,
      Completion.all (parse sizeSelector.text 10) (some ⟨[], 0⟩) = .ok [completion] ∧
        completion.text = "(number)".toList ∧
        ∃ edit, accept sizeSelector.text completion.text completion.kind completion.context =
          .ok edit := by
  have offered : Completion.all (parse sizeSelector.text 10) (some ⟨[], 0⟩) =
      .ok [Completion.offered sizeFocus "(number)"] := by
    rw [Completion.all_of_located locate_sizeSelector]
    exact Completion.atFocus_of_not_mem List.not_mem_nil
  obtain ⟨edit, accepted, _⟩ := exists_accepts_of_offered offered List.mem_cons_self
  exact ⟨_, offered, rfl, edit, accepted⟩

end Typeahead.Acceptance
