import Typeahead.Acceptance.Basic
import Typeahead.Completion.Basic

/-!
# Selector bodies

An editor works on the body of a selector, which is what stands between its outermost braces. The
body is wrapped in braces for reading and editing, and the first and the last character of the
changed text are dropped again.
-/

namespace Typeahead.Body

open Selector (CompletionKind Focus)

/-- The selector with a body. -/
def wrapped (body : Text) : Text :=
  ['{'] ++ body ++ ['}']

/-- The caret of a body, moved behind the brace in front of the body; a negative caret is none. -/
def shifted (caret : Int) : Int :=
  if 0 ≤ caret then caret + 1 else caret

/-- What stands between the first and the last character of a text. -/
def unwrapped (text : Text) : Text :=
  (text.drop 1).dropLast

/-- The tree of the selector with a body. -/
def tree (body : Text) (caret : Int) : Selector.Node :=
  Selector.parse (wrapped body) (shifted caret)

/-- What the caret of a body points at. -/
def focus? (body : Text) (caret : Int) : Option Focus :=
  (tree body caret).locate

/-- The completions at the caret of a body. -/
def completions (body : Text) (caret : Int) (schema : Schema) :
    Except Fuzzy.QueryError (List Completion) :=
  Completion.all (tree body caret) (some schema)

/-- A body and its caret. -/
structure Position where
  body : Text
  caret : Int
  deriving DecidableEq, Repr

/-- The body that an edit of its selector leaves; the caret stays inside. -/
def Position.afterEdit (body : Text) (edit : Edit) : Position :=
  let changed := unwrapped (edit.apply (wrapped body))
  { body := changed, caret := Nat.min (edit.caret - 1) changed.length }

/-- Accept a completion at a focus of a body. -/
def acceptAt (body completion : Text) (kind : CompletionKind) (focus : Focus) :
    Except Acceptance.TemplateError Position :=
  (Acceptance.accept (wrapped body) completion kind focus.context).map (Position.afterEdit body)

/-- Accept a completion at the caret of a body. Nothing changes if the caret points at nothing. -/
def accept (position : Position) (completion : Text) (kind : CompletionKind) :
    Except Acceptance.TemplateError Position :=
  match focus? position.body position.caret with
  | none => .ok position
  | some focus => acceptAt position.body completion kind focus

end Typeahead.Body
