import Typeahead.Body

/-!
# Text boxes

A text box holds a selector body with a caret, and shows the completions at the caret after each
keystroke. Keystrokes type a text, move the caret, delete towards the start, and accept one of the
completions that are shown.
-/

namespace Typeahead

open Body (Position)

/-- A keystroke, or several that do one thing. -/
inductive Keystroke where
  | type (text : Text)
  /-- Move the caret by a number of characters, at most to an end. -/
  | move (distance : Int)
  /-- Delete a number of characters before the caret. -/
  | delete (count : Nat)
  /-- Accept a completion by its position in what is shown. -/
  | accept (choice : Nat)
  deriving DecidableEq, Repr

/-- A body with a caret, and what is shown. -/
structure TextBox where
  body : Text := []
  caret : Nat := 0
  shown : List Completion := []

/-- Why nothing is shown after a keystroke. -/
inductive KeystrokeError where
  | query (error : Fuzzy.QueryError)
  | template (error : Acceptance.TemplateError)

namespace TextBox

/-- The body with its caret. -/
def position (box : TextBox) : Position :=
  { body := box.body, caret := box.caret }

/-- Put another body into the box. The caret of a changed body is never negative. -/
def moveTo (box : TextBox) (position : Position) : TextBox :=
  { box with body := position.body, caret := position.caret.toNat }

/-- The box after a keystroke, before anything is shown. -/
def press (box : TextBox) : Keystroke → Except Acceptance.TemplateError TextBox
  | .type text =>
      .ok { box with
        body := box.body.take box.caret ++ text ++ box.body.drop box.caret
        caret := box.caret + text.length }
  | .move distance =>
      .ok { box with caret := Nat.min (box.caret + distance).toNat box.body.length }
  | .delete count =>
      let start := box.caret - count
      .ok { box with body := box.body.take start ++ box.body.drop box.caret, caret := start }
  | .accept choice =>
      match box.shown[choice]? with
      | none => .ok box
      | some completion =>
          (Body.accept box.position completion.text completion.kind).map box.moveTo

/-- There is no completion for a keystroke to accept. -/
def isIdle (box : TextBox) : Keystroke → Bool
  | .accept choice => box.shown[choice]?.isNone
  | _ => false

/-- Show the completions at the caret. -/
def refresh (box : TextBox) (schema : Schema) : Option KeystrokeError × TextBox :=
  match Body.completions box.body box.caret schema with
  | .ok completions => (none, { box with shown := completions })
  | .error error => (some (.query error), { box with shown := [] })

/-- The box after a keystroke. If something goes wrong nothing is shown. -/
def strike (box : TextBox) (schema : Schema) (keystroke : Keystroke) :
    Option KeystrokeError × TextBox :=
  match box.press keystroke with
  | .ok next => next.refresh schema
  | .error error => (some (.template error), { box with shown := [] })

end TextBox

end Typeahead
