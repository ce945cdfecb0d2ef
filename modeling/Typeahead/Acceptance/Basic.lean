import Typeahead.Acceptance.Insertion
import Typeahead.Selector.Focus

/-!
# Accepting a completion

An accepted completion becomes an edit of the selector text. What it replaces is told by its kind
and by the node that it belongs to: a name, a value, or nothing where a new property or array
element is inserted.
-/

namespace Typeahead.Acceptance

open Selector (Node Key CompletionKind)

/-- Replace the value in a node. -/
def replaceValue (node : Node) (expansion : Expansion) : Edit :=
  let start := node.start + node.raw.leadingBlanks.length
  { start
    removed := node.raw.value.length
    inserted := expansion.text
    caret := start + expansion.offset }

/-- Accept a value at a node. In an array without an element at the caret it is a new element. -/
def acceptValue (base value : Text) (node : Node) : Except TemplateError Edit :=
  (expand value).map fun expansion =>
    match node with
    | .array raw start cursor values =>
        if (cursor.bind fun index => values[index]?).isNone then
          insertElement base (.array raw start cursor values) .bracket expansion
        else
          replaceValue (.array raw start cursor values) expansion
    | node => replaceValue node expansion

/-- Insert a property behind the last one of an object. -/
def insertProperty (base name : Text) (object : Node) (properties : List (Option Key × Node)) :
    Edit :=
  insertElement base object .brace (newKey properties name)

/-- Accept a name at a node. Without a name at the caret of an object nothing is replaced. -/
def acceptName (base name : Text) (isNew : Bool) : Node → Edit
  | .object raw start cursor properties =>
      let object := Node.object raw start cursor properties
      match cursor.bind fun index => properties[index]? with
      | none => insertProperty base name object properties
      | some (key?, _) =>
          if isNew then insertProperty base name object properties
          else
            match key?, key?.bind Key.cursor with
            | some key, some offset => replaceName key offset name
            | _, _ => .moveTo object.stop
  | node => .moveTo node.stop

/-- The edit for an accepted completion of a kind at a node. -/
def accept (base completion : Text) (kind : CompletionKind) (node : Node) :
    Except TemplateError Edit :=
  match kind with
  | .value => acceptValue base completion node
  | .newProperty => .ok (acceptName base completion true node)
  | .field | .operator => .ok (acceptName base completion false node)

end Typeahead.Acceptance
