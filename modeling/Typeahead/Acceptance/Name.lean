import Typeahead.Acceptance.Template
import Typeahead.Selector.Node
import Typeahead.Text.Escape

/-!
# Writing names

A name is written bare if it is an identifier and between quotes otherwise. When a typed name is
replaced, what was typed up to its last point before the caret is kept, and the quotes around the
old name are added or dropped as the new one needs it. A key without a colon gets one.
-/

namespace Typeahead.Acceptance

open Selector (Key)

/-- The first character of a name that needs no quotes: a common letter in either case, with the
characters whose case is a common letter, an underscore or a dollar sign. -/
def isNameStart (c : Char) : Bool :=
  c.isAlpha || c == '_' || c == '$' ||
    c == 'İ' || c == 'ı' || c == 'ſ' || c.toNat == 0x212A

/-- A further character of a name that needs no quotes. -/
def isNamePart (c : Char) : Bool :=
  isNameStart c || c.isDigit

/-- A line that is a name without quotes. -/
def isBareName (name : Text) : Bool :=
  match line name with
  | [] => false
  | c :: rest => isNameStart c && rest.all isNamePart

/-- The number of characters before the name in the text of a key: blanks and a quote. -/
def nameOffset (raw : Text) : Nat :=
  let blanks := raw.leadingBlanks.length
  if raw.trimLeft.head?.any isQuote then blanks + 1 else blanks

/-- The text of a key around its name. -/
structure KeyFrame where
  before : Text
  /-- The quote before the name. -/
  quote? : Option Char
  after : Text
  deriving DecidableEq, Repr

/-- The text around the name of a key. -/
def KeyFrame.ofKey (key : Key) : KeyFrame :=
  let offset := nameOffset key.raw
  let before := key.raw.take offset
  { before
    quote? := (Text.trim before).head?
    after := key.raw.drop (offset + key.name.length) }

/-- The text around a name that needs no quotes. -/
def KeyFrame.bare (frame : KeyFrame) : KeyFrame where
  before := if frame.quote?.isSome then frame.before.dropLast else frame.before
  quote? := none
  after := if frame.after.head?.any isQuote then frame.after.drop 1 else frame.after

/-- The text around a name that needs quotes. -/
def KeyFrame.quoted (frame : KeyFrame) : KeyFrame :=
  let quote := frame.quote?.getD '\''
  { before := if frame.quote?.isSome then frame.before else frame.before ++ [quote]
    quote? := some quote
    after := if frame.after.head?.any isQuote then frame.after else quote :: frame.after }

/-- The text around a name, with a colon behind it. -/
def KeyFrame.withColon (frame : KeyFrame) : KeyFrame :=
  { frame with
    after := if frame.after.contains ':' then frame.after else frame.after ++ [':', ' '] }

/-- The name that replaces one that is typed as far as an offset. -/
def replacingName (name : Text) (offset : Nat) (completion : Text) : Text :=
  Text.throughLast '.' (name.take offset) ++ completion

/-- Replace the name of a key in which the caret stands at an offset. -/
def replaceName (key : Key) (offset : Nat) (completion : Text) : Edit :=
  let name := replacingName key.name offset completion
  let isBare := isBareName name
  let frame := KeyFrame.ofKey key
  let frame := (if isBare then frame.bare else frame.quoted).withColon
  let spelled := if isBare then name else name.escape
  { start := key.start
    removed := key.raw.length
    inserted := frame.before ++ spelled ++ frame.after
    caret := key.start + frame.before.length + spelled.length }

end Typeahead.Acceptance
