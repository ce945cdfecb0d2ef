import Typeahead.Proofs.Acceptance.Values
import Typeahead.Proofs.Text.Pattern

/-!
# Replacing the typed value in its span

A value is searched with the typed part, which is cut out by trimming. It is written in the place of
what the middle piece of a pattern takes. The two are the same part of the span, so that the blanks
and the comma around the typed part stay, and the rest of the text stays as well.
-/

namespace Typeahead.Acceptance

open Selector
open Text (firstWay? valueSpan)

/-- In a text that holds the span of a node at its place, only the value in the span is replaced. -/
theorem apply_replaceValue {node : Node} {front back gap : Text} (place : node.start = front.length)
    (whole : node.raw.leadingBlanks ++ node.raw.value ++ gap = node.raw) (expansion : Expansion) :
    (replaceValue node expansion).apply (front ++ node.raw ++ back) =
      front ++ (node.raw.leadingBlanks ++ expansion.text ++ gap) ++ back := by
  have split : front ++ node.raw ++ back =
      (front ++ node.raw.leadingBlanks) ++ node.raw.value ++ (gap ++ back) := by
    nth_rewrite 1 [← whole]
    simp
  have starts : (replaceValue node expansion).start =
      (front ++ node.raw.leadingBlanks).length := by
    rw [List.length_append, ← place]
    rfl
  rw [split, Edit.apply_append _ _ _ _ starts rfl]
  simp [replaceValue]

/-- A value is searched with what the middle piece of the pattern takes from the span of its node,
and replaces exactly this part. What the other pieces take makes up the rest of the span, and stays.
The caret goes to its place in what is written. -/
theorem accept_in_span {node : Node} (holds : ¬LacksElement node) (path : Text)
    (choices : Choices) :
    ∃ before comma after : Text,
      firstWay? valueSpan node.raw =
          some [node.raw.leadingBlanks, (Focus.atValue node path choices).sought.typed, before,
            comma, after] ∧
        node.raw.leadingBlanks ++ (Focus.atValue node path choices).sought.typed ++
            (before ++ comma ++ after) = node.raw ∧
        ∀ (front back completion : Text) (expansion : Expansion), node.start = front.length →
          expand completion = .ok expansion →
            ∃ edit, accept (front ++ node.raw ++ back) completion .value node = .ok edit ∧
              edit.apply (front ++ node.raw ++ back) =
                front ++ (node.raw.leadingBlanks ++ expansion.text ++ (before ++ comma ++ after)) ++
                  back ∧
              edit.caret = (front ++ node.raw.leadingBlanks).length + expansion.offset := by
  obtain ⟨before, comma, after, first, whole⟩ := Text.firstWay?_valueSpan node.raw
  refine ⟨before, comma, after, first, whole, ?_⟩
  intro front back completion expansion place expanded
  refine ⟨_, accept_of_not_lacksElement expanded holds, ?_, ?_⟩
  · exact apply_replaceValue place whole expansion
  · rw [List.length_append, ← place]
    rfl

/-- A value between blanks and a comma is replaced, and the blanks and the comma stay. -/
theorem accept_in_span_comma :
    ¬LacksElement (.span " 1 ,\n".toList 3 (some 2)) ∧
      ∃ edit,
        accept "\x7ba: 1 ,\n\x7d".toList "27".toList .value (.span " 1 ,\n".toList 3 (some 2)) =
            .ok edit ∧
        edit.apply "\x7ba: 1 ,\n\x7d".toList = "\x7ba: 27 ,\n\x7d".toList ∧ edit.caret = 6 := by
  have holds : ¬LacksElement (.span " 1 ,\n".toList 3 (some 2)) := id
  have taken : firstWay? valueSpan " 1 ,\n".toList =
      some [[' '], ['1'], [' '], [','], ['\n']] := rfl
  obtain ⟨before, comma, after, first, -, accepts⟩ := accept_in_span holds [] .sampled
  have same := Option.some.inj (taken.symm.trans first)
  simp only [List.cons.injEq, and_true] at same
  obtain ⟨_, _, rfl, rfl, rfl⟩ := same
  exact ⟨holds, accepts "\x7ba:".toList "\x7d".toList "27".toList ⟨"27".toList, 2⟩ rfl rfl⟩

end Typeahead.Acceptance
