import Typeahead.Acceptance.Edit
import Typeahead.Text.Word

/-!
# What is inserted for a value

A value is inserted as it is. A placeholder, a word between parentheses, stands for the spelling
of a value of that kind, and its template tells where the caret goes to fill it in.
-/

namespace Typeahead.Acceptance

/-- The mark for the caret in a template. -/
def caretMark : Char := '|'

/-- The templates of the placeholders. -/
def templates : List (Text × Text) :=
  [("(double)", ""), ("(number)", ""), ("(string)", "'|'"), ("(object)", "\x7b|\x7d"),
    ("(array)", "[|]"), ("(binData)", "BinData(0, '|')"), ("(objectId)", "ObjectId('|')"),
    ("(bool)", "true"), ("(date)", "ISODate('|')"), ("(null)", "null"), ("(regex)", "/|/"),
    ("(timestamp)", "Timestamp(|)"), ("(long)", "Long('|')"), ("(minKey)", "MinKey()"),
    ("(maxKey)", "MaxKey()")]

/-- A line, without the end of line that it may have. -/
def line (text : Text) : Text :=
  if text.getLast? = some '\n' then text.dropLast else text

/-- A line that is a word between parentheses. -/
def isPlaceholder (text : Text) : Bool :=
  match line text with
  | '(' :: rest =>
      let word := rest.dropLast
      rest.getLast? = some ')' && !word.isEmpty && word.all isWordCharacter
  | _ => false

/-- Why a completion cannot be accepted. -/
inductive TemplateError where
  /-- A placeholder has no template. -/
  | unknown (placeholder : Text)
  deriving DecidableEq, Repr

/-- What is told about a placeholder without a template. -/
def TemplateError.message : TemplateError → Text
  | unknown placeholder => "No replacement template for ".toList ++ placeholder

/-- A text to insert, with the offset of the caret in it. -/
structure Expansion where
  text : Text
  offset : Nat
  deriving DecidableEq, Repr

/-- The expansion of a template: the caret goes to its mark, or behind a text without one. -/
def Expansion.ofTemplate (template : Text) : Expansion where
  text := template.erase caretMark
  offset := (template.indexOf? caretMark).getD template.length

/-- What is inserted for a value. -/
def expand (value : Text) : Except TemplateError Expansion :=
  if isPlaceholder value then
    match (templates.find? (·.1 == value)) with
    | some (_, template) => .ok (Expansion.ofTemplate template)
    | none => .error (.unknown value)
  else
    .ok { text := value, offset := value.length }

end Typeahead.Acceptance
