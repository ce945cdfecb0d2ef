import Typeahead.Proofs.Selector.Caretless
import Typeahead.Proofs.Selector.Pieces
import Typeahead.Proofs.Selector.Relocation

/-!
# Carets outside the text

A caret outside the text is no caret: no scan recovers, and no body, key or element has the caret.
But a root that is a span looks for the caret up to one place behind the place at which its scan
stopped. A scan that comes to the end of the text stops there, or behind it where the last character
is to be escaped. So a root span has a caret that stands up to two places behind the end.
-/

namespace Typeahead.Selector

/-- A node without a caret, whose keys have none either. -/
structure Node.Caretless (node : Node) : Prop where
  cursor : node.cursor = none
  keys : ∀ key ∈ node.keys, key.cursor = none

/-! ## Sources without a caret -/

/-- A body does not have a caret that stands behind the end of its chunk. -/
theorem Chunk.caret_of_body?_of_behind {chunk : Chunk} {delimiter : Delimiter} {body : Source}
    (found : chunk.body? = some (delimiter, body))
    (behind : ∀ offset ∈ chunk.cursor, chunk.raw.length < offset) : body.caret = none := by
  have inside := openerLength_add_le found
  rw [caret_of_body? found, Option.eq_none_iff_forall_ne_some]
  intro position within
  rw [Caret.into_eq_some_iff, Option.map_eq_some_iff] at within
  obtain ⟨⟨offset, here, same⟩, _, high⟩ := within
  have beyond := behind offset here
  rw [Int.ofNat_eq_natCast] at same
  omega

namespace Source

variable {source : Source}

theorem caret_advance_of_no_caret (noCaret : source.caret = none) (count : Nat) :
    (source.advance count).caret = none := by
  rw [advance, noCaret]
  rfl

theorem cursor_takeValue_of_no_caret (noCaret : source.caret = none) :
    source.takeValue.1.cursor = none := by
  rw [takeValue, cut, noCaret]
  rfl

end Source

/-- What is left behind a source without a caret has none. -/
theorem keeps_caretless : Keeps fun source => source.caret = none where
  key {source} noCaret := by
    rcases source.takeKey_eq_or_advance with same | ⟨count, dropped⟩
    · rw [same]
      exact noCaret
    · rw [dropped]
      exact Source.caret_advance_of_no_caret noCaret count
  value noCaret := Source.caret_advance_of_no_caret noCaret _
  body noCaret found := by
    apply Chunk.caret_of_body?_of_behind found
    rw [Source.cursor_takeValue_of_no_caret noCaret]
    exact fun offset here => absurd here (Option.not_mem_none offset)

/-- A node that was taken from a source without a caret has none. -/
theorem Source.caretless_node {source : Source} (noCaret : source.caret = none) :
    source.takeValue.1.node.Caretless := by
  cases looked : source.takeValue.1.node with
  | span raw start cursor =>
      obtain ⟨_, _, rfl⟩ := Chunk.eq_of_node_eq_span looked
      exact ⟨cursor_takeValue_of_no_caret noCaret, fun _ member => absurd member List.not_mem_nil⟩
  | object raw start cursor properties =>
      obtain ⟨body, found, rfl, rfl⟩ := Chunk.exists_of_node_eq_object looked
      have bodyNone := keeps_caretless.body noCaret found
      refine ⟨index_eq_none _ _ bodyNone, fun key member => ?_⟩
      rw [Node.keys, List.filterMap_map] at member
      obtain ⟨property, among, isKey⟩ := List.mem_filterMap.mp member
      have keeps (part : Source) (partNone : part.caret = none) :
          part.takeProperty.2.caret = none := keeps_caretless.property partNone
      obtain ⟨part, partNone, rfl⟩ := exists_take_of_mem_elements_of_keeps keeps bodyNone among
      rw [(takesKey_of_eq_some isKey).cursor, partNone]
      rfl
  | array raw start cursor values =>
      obtain ⟨delimiter, body, found, _, rfl, _⟩ := Chunk.exists_of_node_eq_array looked
      exact ⟨index_eq_none _ _ (keeps_caretless.body noCaret found),
        fun _ member => absurd member List.not_mem_nil⟩

/-- In the tree of a text without a caret nothing has one. -/
theorem caretless_of_part_parse {text : Text} {node : Node}
    (part : Node.Part (parse text (-1)) node) : node.Caretless := by
  have noCaret : (Source.mk text 0 none).caret = none := rfl
  obtain ⟨source, noCaret, rfl⟩ := keeps_caretless.exists_source noCaret part
  exact source.caretless_node noCaret

/-! ## Carets behind the end -/

/-- A scan that recovers only behind the end of the text recovers nowhere. -/
theorem Scan.run_of_late {boundary : Int} {position : Nat} {scan : Scan} {text : Text}
    (late : position + text.length < boundary) :
    run (some boundary) position scan text = run none position scan text := by
  induction text generalizing position scan with
  | nil => rfl
  | cons c rest inductionHypothesis =>
      rw [List.length_cons] at late
      have never : recoversAt (some boundary) position = recoversAt none position := by
        refine recoversAt_of_late fun other same => ?_
        cases same
        omega
      rw [run, run, never]
      cases scan.step (recoversAt none position) c with
      | none => rfl
      | some next => exact inductionHypothesis (by omega)

/-- Put a caret into a span; a container stays as it is. -/
def Node.placeCaret (cursor : Option Nat) : Node → Node
  | span raw start _ => span raw start cursor
  | object raw start other properties => object raw start other properties
  | array raw start other values => array raw start other values

/-- A value whose caret stands behind its end is looked into as one without a caret, but for the
caret of a span. -/
theorem Source.node_of_behind {source : Source}
    (behind : ∀ offset ∈ source.takeValue.1.cursor, source.takeValue.1.raw.length < offset) :
    source.takeValue.1.node =
      source.takeValue.1.withoutCaret.node.placeCaret source.takeValue.1.cursor := by
  have bodies := source.takeValue.1.body?_withoutCaret
  cases found : source.takeValue.1.body? with
  | none =>
      rw [found, Option.map_none] at bodies
      rw [Chunk.node_of_body?_eq_none found, Chunk.node_of_body?_eq_none bodies]
      rfl
  | some framed =>
      obtain ⟨delimiter, body⟩ := framed
      have same : body.withoutCaret = body := by
        rw [withoutCaret, ← Chunk.caret_of_body?_of_behind found behind]
      have unchanged : source.takeValue.1.withoutCaret.body? = some (delimiter, body) := by
        rw [bodies, found, Option.map_some]
        exact congrArg (some <| Prod.mk delimiter ·) same
      rcases delimiter_of_body? found with rfl | rfl
      · rw [Chunk.node_of_body?_eq_brace found, Chunk.node_of_body?_eq_brace unchanged]
        rfl
      · rw [Chunk.node_of_body?_eq_bracket found, Chunk.node_of_body?_eq_bracket unchanged]
        rfl

/-- A caret behind the end of the text changes nothing in the tree but the caret of the root. -/
theorem parse_of_behind {text : Text} {caret : Int} (behind : text.length < caret) :
    parse text caret = (parse text (-1)).placeCaret
      (Caret.within (some caret) 0 ((Scan.run none 0 {} text).1 + 1 : Nat)) := by
  have plain : (Source.mk text 0 (some caret)).scanValue = Scan.run none 0 {} text := by
    have late : ((0 : Nat) : Int) + text.length < caret := by omega
    have same : (Source.mk text 0 (some caret)).scanFrom (some caret) =
        Scan.run none 0 {} text := Scan.run_of_late late
    unfold Source.scanValue
    dsimp only
    split
    · rfl
    · exact same
  have taken : (Source.mk text 0 none).takeValue.1 =
      (Source.mk text 0 (some caret)).takeValue.1.withoutCaret := by
    have without : (Source.mk text 0 none).scanValue = Scan.run none 0 {} text :=
      (Source.mk text 0 (some caret)).scanValue_withoutCaret
    rw [Source.takeValue, Source.takeValue, plain, without]
    rfl
  have cursor : (Source.mk text 0 (some caret)).takeValue.1.cursor =
      Caret.within (some caret) 0 ((Scan.run none 0 {} text).1 + 1 : Nat) := by
    rw [Source.takeValue, plain]
    rfl
  have beyond : ∀ offset ∈ (Source.mk text 0 (some caret)).takeValue.1.cursor,
      (Source.mk text 0 (some caret)).takeValue.1.raw.length < offset := by
    intro offset here
    have short : (Source.mk text 0 (some caret)).takeValue.1.raw.length ≤ text.length :=
      Source.cut_chunk_length_le _ _
    rw [cursor, Option.mem_def, Caret.within_eq_some_iff, Option.some.injEq] at here
    omega
  have positive : ¬caret < 0 := by omega
  rw [parse, if_neg positive, Source.node_of_behind beyond, cursor, ← taken]
  rfl

/-! ## Carets on either side -/

theorem Node.Caretless.placeCaret_none {node : Node} (caretless : node.Caretless) :
    node.placeCaret none = node := by
  cases node with
  | span raw start cursor =>
      obtain rfl : cursor = none := caretless.cursor
      rfl
  | object => rfl
  | array => rfl

theorem Caret.within_zero_eq_none_iff {caret : Int} {high : Nat} :
    Caret.within (some caret) 0 high = none ↔ caret < 0 ∨ high < caret := by
  simp only [within, Option.bind_some, ite_eq_right_iff, reduceCtorEq, imp_false]
  omega

/-- The place behind which a root span has no caret, one behind the stop of its scan. -/
def rootReach (text : Text) : Nat :=
  (Scan.run none 0 {} text).1 + 1

theorem Scan.run_le (recovery : Option Int) (position : Nat) (scan : Scan) (text : Text) :
    (run recovery position scan text).1 ≤ position + text.length + 1 := by
  induction text generalizing position scan with
  | nil =>
      have escaped := scan.escaped.toNat_le
      simp only [run, List.length_nil]
      omega
  | cons c rest inductionHypothesis =>
      rw [run, List.length_cons]
      cases scan.step (recoversAt recovery position) c with
      | none => simp only; omega
      | some next =>
          have bound := inductionHypothesis (position + 1) next
          simp only
          omega

/-- A caret outside the text leaves the tree as it is without a caret, where nothing has one; but a
root that is a span has the caret up to two places behind the end of the text, as far as its scan
reaches. So a caret outside is no caret exactly if the root is an object or an array, or the caret
is negative or out of reach. -/
theorem parse_of_outside {text : Text} {caret : Int} (outside : caret < 0 ∨ text.length < caret) :
    (∀ node, Node.Part (parse text (-1)) node → node.Caretless) ∧
      parse text caret =
        (parse text (-1)).placeCaret (Caret.within (some caret) 0 (rootReach text)) ∧
      rootReach text ≤ text.length + 2 ∧
      ((∀ node, Node.Part (parse text caret) node → node.Caretless) ↔
        ((∃ raw start cursor, parse text (-1) = .span raw start cursor) →
          caret < 0 ∨ rootReach text < caret)) := by
  have plain (node : Node) (part : Node.Part (parse text (-1)) node) : node.Caretless :=
    caretless_of_part_parse part
  have placed : parse text caret =
      (parse text (-1)).placeCaret (Caret.within (some caret) 0 (rootReach text)) := by
    rcases outside with negative | behind
    · have same : parse text caret = parse text (-1) := by
        rw [parse, parse, if_pos negative, if_pos (by decide)]
      rw [same, Caret.within_zero_eq_none_iff.mpr (.inl negative),
        (plain _ .root).placeCaret_none]
    · exact parse_of_behind behind
  have bound := Scan.run_le none 0 {} text
  rw [Nat.zero_add] at bound
  refine ⟨plain, placed, Nat.succ_le_succ bound, fun all => ?_, fun reach => ?_⟩
  · rintro ⟨raw, start, cursor, looked⟩
    have root := (all _ .root).cursor
    rw [placed, looked] at root
    exact Caret.within_zero_eq_none_iff.mp root
  · have same : parse text caret = parse text (-1) := by
      cases looked : parse text (-1) with
      | span raw start cursor =>
          rw [placed, Caret.within_zero_eq_none_iff.mpr (reach ⟨raw, start, cursor, looked⟩),
            (plain _ .root).placeCaret_none, looked]
      | object => rw [placed, looked, Node.placeCaret]
      | array => rw [placed, looked, Node.placeCaret]
    rw [same]
    exact plain

/-- Nothing in a tree of which nothing is closed has the caret that stands three places behind the
end. -/
theorem parse_of_outside_nothingClosed :
    nothingClosed.length < (9 : Int) ∧
      ∀ node, Node.Part (parse nothingClosed 9) node → node.Caretless := by
  have behind : nothingClosed.length < (9 : Int) := by
    decide
  obtain ⟨_, _, bound, caretless⟩ := parse_of_outside (.inr behind)
  refine ⟨behind, caretless.mpr fun _ => .inr ?_⟩
  have length : nothingClosed.length = 6 := rfl
  omega

/-- The caret stands behind the end of a text of one character, and its node has the caret. -/
theorem cursor_parse_behind : (['a'] : Text).length < 2 ∧ (parse ['a'] 2).cursor = some 2 := by
  have spans : (Source.takeValue ⟨['a'], 0, some 2⟩).1.body? = none := rfl
  refine ⟨by decide, ?_⟩
  change (Source.takeValue ⟨['a'], 0, some 2⟩).1.node.cursor = some 2
  rw [Chunk.node_of_body?_eq_none spans]
  rfl

end Typeahead.Selector
