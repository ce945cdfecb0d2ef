import Typeahead.Text.Basic

/-!
# Carets

The caret is the position in a text at which the user edits. Each part of the text that is read
on its own relocates it: inside the part it becomes an offset from the start of the part, and
elsewhere the part has no caret.
-/

namespace Typeahead.Selector

/-- A position in a text that may be absent, and that may lie outside the text. -/
abbrev Caret := Option Int

namespace Caret

/-- The offset of the caret in a window, whose two ends belong to it. -/
def within (caret : Caret) (low high : Int) : Option Nat :=
  caret.bind fun position =>
    if low ≤ position ∧ position ≤ high then some (position - low).toNat else none

@[simp]
theorem within_none (low high : Int) : within none low high = none :=
  rfl

theorem within_eq_some_iff (caret : Caret) (low high : Int) (offset : Nat) :
    within caret low high = some offset ↔
      caret = some (low + offset) ∧ low + offset ≤ high := by
  cases caret with
  | none => simp [within]
  | some position =>
      simp only [within, Option.bind_some, Option.some.injEq]
      split
      · simp only [Option.some.injEq]
        omega
      · simp only [reduceCtorEq, false_iff]
        omega

end Caret

end Typeahead.Selector
