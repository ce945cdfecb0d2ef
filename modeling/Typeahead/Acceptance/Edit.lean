import Typeahead.Text.Basic

/-!
# Edits

An edit removes a stretch of a text, puts another text in its place, and moves the caret. All that
stands before and behind the stretch stays as it is.
-/

namespace Typeahead

/-- A change at one place of a text. -/
structure Edit where
  start : Nat
  /-- The number of characters that are removed. -/
  removed : Nat
  inserted : Text
  /-- The caret in the changed text. -/
  caret : Nat
  deriving DecidableEq, Repr

namespace Edit

/-- The changed text. -/
def apply (edit : Edit) (text : Text) : Text :=
  text.take edit.start ++ edit.inserted ++ text.drop (edit.start + edit.removed)

/-- Only move the caret. -/
def moveTo (caret : Nat) : Edit where
  start := 0
  removed := 0
  inserted := []
  caret

@[simp]
theorem apply_moveTo (caret : Nat) (text : Text) : (moveTo caret).apply text = text := by
  simp [apply, moveTo]

theorem apply_append (edit : Edit) (before middle after : Text)
    (starts : edit.start = before.length) (covers : edit.removed = middle.length) :
    edit.apply (before ++ middle ++ after) = before ++ edit.inserted ++ after := by
  simp [apply, starts, covers, List.drop_append]

end Edit

end Typeahead
