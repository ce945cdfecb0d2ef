import Typeahead.Body
import Typeahead.Proofs.Acceptance.Places
import Typeahead.Proofs.Selector.Reading
import Typeahead.Proofs.Selector.Walk

/-!
# The braces around a body

A body is edited between two braces, which are dropped from the changed text again. This gives the
changed body only if the edit stays between the braces. It does not always: the value of a key
without a colon is placed behind the key, where the closing brace stands; a quoted key whose quote
is not closed takes the brace in; and a value can be accepted where a name is written. Here is the
exact condition under which an edit keeps the braces.
-/

namespace Typeahead.Body

open Selector Acceptance

/-! ## Where the edited part ends -/

/-- Where the part ends that a value is accepted for: the last value of an array to which one is
added, and otherwise the node. -/
def valueReach : Node → Nat
  | .array raw start cursor values =>
      if (cursor.bind fun index => values[index]?).isNone then
        lastStop (.array raw start cursor values)
      else (Node.array raw start cursor values).stop
  | node => node.stop

/-- Where the part ends that a name is accepted for: the last property of an object to which one is
added, and otherwise the key. -/
def nameReach (isNew : Bool) : Node → Nat
  | .object raw start cursor properties =>
      match cursor.bind fun index => properties[index]? with
      | none => lastStop (.object raw start cursor properties)
      | some (key?, _) =>
          if isNew then lastStop (.object raw start cursor properties)
          else
            match key?, key?.bind Key.cursor with
            | some key, some _ => key.start + key.raw.length
            | _, _ => 0
  | _ => 0

/-- Where the part ends that a completion of a kind is accepted for. -/
def reach (kind : CompletionKind) (node : Node) : Nat :=
  match kind with
  | .value => valueReach node
  | .newProperty => nameReach true node
  | .field | .operator => nameReach false node

/-- An edit that leaves the text as it is. -/
def IsIdle (edit : Edit) : Prop :=
  edit.removed = 0 ∧ edit.inserted = []

/-- An edit of a wrapped body that only changes what stands between the braces: a part of the body
gives way to all of what is inserted. -/
def KeepsBraces (body : Text) (edit : Edit) : Prop :=
  ∃ before removed after, body = before ++ removed ++ after ∧
    edit.start = before.length + 1 ∧ edit.removed = removed.length ∧
      edit.apply (wrapped body) = wrapped (before ++ edit.inserted ++ after) ∧
        (Position.afterEdit body edit).body = before ++ edit.inserted ++ after

variable {text : Text} {least : Nat} {chunk : Chunk} {edit : Edit} {completion : Text}

theorem exists_expansion {α : Type} {edits : Expansion → α} {value : Text} {accepted : α}
    (done : (expand value).map edits = .ok accepted) :
    ∃ expansion, edits expansion = accepted := by
  cases expanded : expand value with
  | error => rw [expanded] at done; contradiction
  | ok expansion =>
      rw [expanded] at done
      exact ⟨expansion, Except.ok.inj done⟩

/-- A new property is put before the brace at the end if the last one ends there. -/
theorem insertProperty_stop_lt_iff (lies : chunk.Lies text least)
    (braced : text.getLast? = some '}') {raw : Text} {start : Nat} {cursor : Option Nat}
    {properties : List (Option Key × Node)}
    (looked : chunk.node = .object raw start cursor properties) :
    1 ≤ (placeIn text chunk.node .brace).position ∧
      ((placeIn text chunk.node .brace).position < text.length ↔
        lastStop chunk.node < text.length) := by
  obtain ⟨body, found, _, _⟩ := chunk.exists_of_node_eq_object looked
  obtain ⟨positive, same⟩ := behindElements_iff lies braced found
  have low := (placeIn_position_bounds text chunk.node .brace).1
  exact ⟨by omega, (placeIn_brace_lt_iff chunk.node braced).trans same⟩

/-- A new value is put before the brace at the end if the last one ends there. -/
theorem insertValue_stop_lt_iff (lies : chunk.Lies text least)
    (braced : text.getLast? = some '}') {raw : Text} {start : Nat} {cursor : Option Nat}
    {values : List Node} (looked : chunk.node = .array raw start cursor values) :
    1 ≤ (placeIn text chunk.node .bracket).position ∧
      ((placeIn text chunk.node .bracket).position < text.length ↔
        lastStop chunk.node < text.length) := by
  obtain ⟨delimiter, body, found, noBrace, _, _⟩ := chunk.exists_of_node_eq_array looked
  rw [(lies.delimiter found).resolve_left noBrace] at found
  obtain ⟨positive, same⟩ := behindElements_iff lies braced found
  have low := (placeIn_position_bounds text chunk.node .bracket).1
  exact ⟨by omega, (placeIn_bracket_lt_iff lies braced looked).trans same⟩

/-- A replaced value starts in its node, and lies before the brace at the end if the node does. -/
theorem replaceValue_stop_lt_iff (lies : chunk.Lies text least)
    (braced : text.getLast? = some '}') (expansion : Expansion) :
    chunk.start ≤ (replaceValue chunk.node expansion).start ∧
      ((replaceValue chunk.node expansion).start + (replaceValue chunk.node expansion).removed <
          text.length ↔ chunk.node.stop < text.length) := by
  have same := value_stop_lt_iff lies.shows braced
  simp only [replaceValue, Node.stop, Chunk.node_start, Chunk.node_raw]
  exact ⟨Nat.le_add_right _ _, same⟩

/-- An accepted value is put before the brace at the end if the part that it is for ends there. -/
theorem acceptValue_stop_lt_iff (lies : chunk.Lies text least)
    (braced : text.getLast? = some '}') (inner : 1 ≤ chunk.start)
    (accepted : acceptValue text completion chunk.node = .ok edit) :
    1 ≤ edit.start ∧
      (edit.start + edit.removed < text.length ↔ valueReach chunk.node < text.length) := by
  unfold acceptValue at accepted
  obtain ⟨expansion, rfl⟩ := exists_expansion accepted
  obtain ⟨starts, replaced⟩ := replaceValue_stop_lt_iff lies braced expansion
  have positive := Nat.le_trans inner starts
  cases looked : chunk.node with
  | span =>
      rw [looked] at replaced positive
      exact ⟨positive, replaced⟩
  | object =>
      rw [looked] at replaced positive
      exact ⟨positive, replaced⟩
  | array raw start cursor values =>
      have inserted := insertValue_stop_lt_iff lies braced looked
      rw [looked] at replaced positive inserted
      rw [valueReach]
      simp only
      split
      · exact inserted
      · exact ⟨positive, replaced⟩

theorem start_lt_of_key (lies : chunk.Lies text least) {raw : Text} {start : Nat}
    {cursor : Option Nat} {properties : List (Option Key × Node)}
    (looked : chunk.node = .object raw start cursor properties)
    {property : Option Key × Node} (member : property ∈ properties) {key : Key}
    (hasKey : property.1 = some key) : chunk.start < key.start := by
  obtain ⟨body, found, _, rfl⟩ := chunk.exists_of_node_eq_object looked
  rcases List.mem_map.mp member with ⟨taken, among, rfl⟩
  exact (((lies.body found).of_mem_properties among).1 key hasKey).least

/-- An accepted name is put before the brace at the end if the part that it is for ends there. -/
theorem acceptName_stop_lt_iff (lies : chunk.Lies text least)
    (braced : text.getLast? = some '}') (isNew : Bool)
    (edits : ¬IsIdle (acceptName text completion isNew chunk.node)) :
    1 ≤ (acceptName text completion isNew chunk.node).start ∧
      ((acceptName text completion isNew chunk.node).start +
          (acceptName text completion isNew chunk.node).removed < text.length ↔
        nameReach isNew chunk.node < text.length) := by
  cases looked : chunk.node with
  | span => exact absurd ⟨rfl, rfl⟩ (looked ▸ edits)
  | array => exact absurd ⟨rfl, rfl⟩ (looked ▸ edits)
  | object raw start cursor properties =>
      have inserted := insertProperty_stop_lt_iff lies braced looked
      rw [looked] at inserted edits
      unfold acceptName nameReach at *
      cases found : cursor.bind fun index => properties[index]? with
      | none =>
          simp only [found]
          exact inserted
      | some property =>
          rcases property with ⟨key?, value⟩
          simp only [found] at edits ⊢
          cases isNew with
          | true => exact inserted
          | false =>
              cases key? with
              | none => exact absurd ⟨rfl, rfl⟩ edits
              | some key =>
                  rcases Option.bind_eq_some_iff.mp found with ⟨index, _, within⟩
                  have behind := start_lt_of_key lies looked (List.mem_of_getElem? within) rfl
                  simp only [Bool.false_eq_true, if_false, Option.bind_some] at edits ⊢
                  cases offset : key.cursor with
                  | none =>
                      rw [offset] at edits
                      exact absurd ⟨rfl, rfl⟩ edits
                  | some offset => exact ⟨Nat.le_trans (Nat.le_add_left 1 _) behind, Iff.rfl⟩

/-! ## Bodies -/

theorem length_wrapped (body : Text) : (wrapped body).length = body.length + 2 := by
  simp [wrapped]

theorem getLast?_wrapped (body : Text) : (wrapped body).getLast? = some '}' := by
  rw [wrapped, List.getLast?_concat]

theorem unwrapped_wrapped (body : Text) : unwrapped (wrapped body) = body := by
  simp [unwrapped, wrapped]

/-- An edit between the braces changes the part of the body that it covers. -/
theorem apply_wrapped {before removed after : Text} (starts : edit.start = before.length + 1)
    (covers : edit.removed = removed.length) :
    edit.apply (wrapped (before ++ removed ++ after)) =
      wrapped (before ++ edit.inserted ++ after) := by
  have split : wrapped (before ++ removed ++ after) =
      ('{' :: before) ++ removed ++ (after ++ ['}']) := by
    simp [wrapped]
  rw [split, Edit.apply_append edit ('{' :: before) removed (after ++ ['}']) starts covers]
  simp [wrapped]

/-- An edit keeps the braces if and only if it starts and ends between them. -/
theorem keepsBraces_iff_within {body : Text} :
    KeepsBraces body edit ↔ 1 ≤ edit.start ∧ edit.start + edit.removed ≤ body.length + 1 := by
  constructor
  · rintro ⟨before, removed, after, rfl, starts, length, _⟩
    simp only [List.length_append]
    omega
  · rintro ⟨starts, stops⟩
    have split : body = body.take (edit.start - 1) ++
        (body.drop (edit.start - 1)).take edit.removed ++
          body.drop (edit.start - 1 + edit.removed) := by
      rw [List.append_assoc, ← List.drop_drop, List.take_append_drop, List.take_append_drop]
    have begins : edit.start = (body.take (edit.start - 1)).length + 1 := by
      rw [List.length_take]
      omega
    have covers : edit.removed = ((body.drop (edit.start - 1)).take edit.removed).length := by
      rw [List.length_take, List.length_drop]
      omega
    have applied := @apply_wrapped _ _ _ (body.drop (edit.start - 1 + edit.removed)) begins covers
    rw [← split] at applied
    refine ⟨_, _, _, split, begins, covers, applied, ?_⟩
    rw [Position.afterEdit]
    simp only
    rw [applied, unwrapped_wrapped]

/-- A value for the whole selector replaces the brace in front of the body. -/
theorem acceptValue_start_of_root {body : Text} (lies : chunk.Lies (wrapped body) 0)
    (root : chunk.start = 0)
    (accepted : acceptValue (wrapped body) completion chunk.node = .ok edit) :
    edit.start = 0 := by
  have blanks : chunk.raw.leadingBlanks = [] := by
    rcases lies.shows with ⟨limit, raw⟩
    rw [raw, root, List.drop_zero]
    cases limit <;> rfl
  unfold acceptValue at accepted
  obtain ⟨expansion, rfl⟩ := exists_expansion accepted
  have replaced : (replaceValue chunk.node expansion).start = 0 := by
    rw [replaceValue, Chunk.node_start, Chunk.node_raw, root, blanks]
    rfl
  cases looked : chunk.node with
  | span =>
      rw [looked] at replaced
      exact replaced
  | object =>
      rw [looked] at replaced
      exact replaced
  | array raw start cursor values =>
      obtain ⟨delimiter, body, found, noBrace, _, _⟩ := chunk.exists_of_node_eq_array looked
      obtain ⟨_, _, _, _, afterOpener, whole, _⟩ := chunk.exists_of_body? found
      rcases lies.shows with ⟨limit, shown⟩
      rw [whole, blanks, root, List.drop_zero, List.nil_append] at shown
      cases limit with
      | zero => contradiction
      | succ limit =>
          have opener : delimiter.opener = '{' := (List.cons_eq_cons.mp shown).1
          cases delimiter <;> contradiction

/-- Accepting a completion keeps the braces around a body if and only if it changes nothing, or
it is no value for the whole selector and the part that it is for ends before the closing brace. -/
theorem keepsBraces_iff {body : Text} {caret : Int} {kind : CompletionKind} {focus : Focus}
    (located : focus? body caret = some focus)
    (accepted : Acceptance.accept (wrapped body) completion kind focus.context = .ok edit) :
    IsIdle edit ∨ KeepsBraces body edit ↔
      IsIdle edit ∨
        ((kind = .value → focus.context.start ≠ 0) ∧
          reach kind focus.context ≤ body.length + 1) := by
  by_cases idle : IsIdle edit
  · simp [idle]
  · simp only [idle, false_or]
    obtain ⟨chunk, lies, looked⟩ := exists_chunk_of_locate located
    rw [← looked] at accepted ⊢
    have braced := getLast?_wrapped body
    have length := length_wrapped body
    have names (isNew : Bool) (same : acceptName (wrapped body) completion isNew chunk.node = edit)
        (other : kind ≠ .value) :
        1 ≤ edit.start ∧ edit.start + edit.removed ≤ body.length + 1 ↔
          (kind = .value → chunk.node.start ≠ 0) ∧
            nameReach isNew chunk.node ≤ body.length + 1 := by
      subst same
      obtain ⟨positive, stops⟩ := acceptName_stop_lt_iff lies braced isNew idle
      constructor
      · intro within
        exact ⟨fun value => absurd value other, by omega⟩
      · intro within
        omega
    rw [keepsBraces_iff_within]
    cases kind with
    | value =>
        rw [Chunk.node_start, reach]
        by_cases root : chunk.start = 0
        · have starts := acceptValue_start_of_root lies root accepted
          constructor
          · intro within
            omega
          · intro within
            exact absurd root (within.1 rfl)
        · obtain ⟨positive, stops⟩ := acceptValue_stop_lt_iff lies braced
            (Nat.pos_of_ne_zero root) accepted
          constructor
          · intro within
            exact ⟨fun _ => root, by omega⟩
          · intro within
            omega
    | newProperty => exact names true (Except.ok.inj accepted) (by decide)
    | field => exact names false (Except.ok.inj accepted) (by decide)
    | operator => exact names false (Except.ok.inj accepted) (by decide)

/-! ## A key without a colon -/

/-- The object of one key without a colon. -/
def loneKey : Written :=
  .object [] [(⟨[], .bare ['a'], [], false⟩, .atom [] [] [])] none []

/-- What is read for it with the caret behind the key. -/
def loneNode : Node :=
  loneKey.node 0 (some 2) false

theorem focus?_loneKey :
    focus? "a" 1 =
      some { sought := .name .fields (some ['a']) [], path := [], context := loneNode } := by
  have label : (Label.bare ['a']).WellFormed := by
    refine .bare rfl ?_
    simp only [List.mem_singleton]
    rintro other rfl
    decide
  have wellFormed : loneKey.WellFormed := by
    refine .object rfl rfl (by simp) ⟨⟨rfl, label, rfl⟩, fun _ => ⟨rfl, rfl, rfl⟩, trivial⟩ ?_
    simp only [List.mem_singleton]
    rintro property rfl
    exact .atom rfl rfl (.inl rfl)
  have read : tree "a" 1 = loneNode := wellFormed.parse 2
  rw [focus?, read, Node.locate, loneNode, loneKey, Written.node, locateSelector_object]
  rfl

/-- A new property behind a key without a colon is put behind the closing brace. -/
theorem not_keepsBraces_loneKey :
    ∃ focus edit, focus? "a" 1 = some focus ∧
      Acceptance.accept (wrapped "a") "name" .newProperty focus.context = .ok edit ∧
        edit.apply (wrapped "a") = "\x7ba\x7d, name: ".toList ∧
          accept ⟨"a", 1⟩ "name" .newProperty = .ok ⟨"a\x7d, name:", 8⟩ ∧
            ¬(IsIdle edit ∨ KeepsBraces "a" edit) := by
  refine ⟨_, _, focus?_loneKey, rfl, rfl, ?_, ?_⟩
  · rw [accept, focus?_loneKey]
    rfl
  · rintro (⟨_, nothing⟩ | keeps)
    · contradiction
    · rcases keepsBraces_iff_within.mp keeps with ⟨_, stops⟩
      exact absurd stops (by decide)

/-- With the condition read off: the last property ends behind the closing brace. -/
theorem keepsBraces_iff_loneKey :
    ∃ focus edit, focus? "a" 1 = some focus ∧
      Acceptance.accept (wrapped "a") "name" .newProperty focus.context = .ok edit ∧
        reach .newProperty focus.context = 3 ∧
          (IsIdle edit ∨ KeepsBraces "a" edit ↔
            IsIdle edit ∨ ((CompletionKind.newProperty = .value → focus.context.start ≠ 0) ∧
              reach .newProperty focus.context ≤ 2)) :=
  ⟨_, _, focus?_loneKey, rfl, rfl, keepsBraces_iff focus?_loneKey rfl⟩

end Typeahead.Body
