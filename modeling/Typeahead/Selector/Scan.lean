import Typeahead.Text.Basic

/-!
# Scanning for the end of a value

A value ends at the first comma outside all delimiters. The scan keeps the delimiters that are
open. Inside a quoted stretch a backslash takes away the meaning of the next character, and only
the same quote ends the stretch. Inside brackets the closers of other brackets mean nothing.

Where the scan recovers, a closer that is not the one of the innermost delimiter closes
everything down to its own opener, and everything if it has none. This finds the end of a
container in which the user has just opened a delimiter.
-/

namespace Typeahead.Selector

/-- The pairs of characters that enclose a stretch of text. -/
inductive Delimiter where
  | brace
  | bracket
  | parenthesis
  | apostrophe
  | quotation
  deriving DecidableEq, Repr

namespace Delimiter

/-- The character that opens a stretch. -/
def opener : Delimiter → Char
  | brace => '{'
  | bracket => '['
  | parenthesis => '('
  | apostrophe => '\''
  | quotation => '"'

/-- The character that closes a stretch. -/
def closer : Delimiter → Char
  | brace => '}'
  | bracket => ']'
  | parenthesis => ')'
  | apostrophe => '\''
  | quotation => '"'

/-- Nothing nests in a quoted stretch. -/
def isQuote : Delimiter → Bool
  | apostrophe | quotation => true
  | brace | bracket | parenthesis => false

/-- The delimiter that a character opens. -/
def opening? (c : Char) : Option Delimiter :=
  [brace, bracket, parenthesis, apostrophe, quotation].find? (·.opener == c)

/-- The bracket that a character closes. -/
def closing? (c : Char) : Option Delimiter :=
  [brace, bracket, parenthesis].find? (·.closer == c)

end Delimiter

/-- What the scan knows of the characters that it has passed. -/
structure Scan where
  /-- The open delimiters, the innermost first. -/
  pending : List Delimiter := []
  /-- A backslash has taken away the meaning of the next character. -/
  escaped : Bool := false
  /-- The first delimiter that was opened. -/
  first : Option Delimiter := none
  /-- Outside the first delimited stretch there are only blanks. -/
  solitary : Bool := true
  deriving DecidableEq, Repr

namespace Scan

/-- Close everything down to the opener of a bracket, or everything if it is not open. -/
def closeThrough (target : Delimiter) (pending : List Delimiter) : List Delimiter :=
  (pending.dropWhile (· != target)).drop 1

/-- Pass one character outside all delimiters; a comma ends the value. -/
def stepOutside (scan : Scan) (c : Char) : Option Scan :=
  match Delimiter.opening? c with
  | some delimiter =>
      some
        { scan with
          pending := [delimiter]
          first := scan.first.or (some delimiter)
          solitary := scan.solitary && scan.first.isNone }
  | none =>
      if c = ',' then none else some { scan with solitary := scan.solitary && isBlank c }

/-- Pass one character inside a delimiter that it does not close. -/
def stepInside (scan : Scan) (innermost : Delimiter) (c : Char) : Scan :=
  if innermost.isQuote then
    { scan with escaped := c == '\\' }
  else
    match Delimiter.opening? c with
    | some delimiter => { scan with pending := delimiter :: scan.pending }
    | none => scan

/-- Pass one character, or stop at the comma that ends the value. -/
def step (recovers : Bool) (scan : Scan) (c : Char) : Option Scan :=
  if scan.escaped then
    some { scan with escaped := false }
  else
    match scan.pending with
    | [] => scan.stepOutside c
    | innermost :: outer =>
        if c = innermost.closer then
          some { scan with pending := outer }
        else if recovers then
          match Delimiter.closing? c with
          | some target => some { scan with pending := closeThrough target outer }
          | none => some (scan.stepInside innermost c)
        else
          some (scan.stepInside innermost c)

/-- A position lies at or behind the one from which the scan recovers. -/
def recoversAt (recovery : Option Int) (position : Nat) : Bool :=
  recovery.any fun (boundary : Int) => boundary ≤ position

/-- Pass the characters of a text from a position on. The result is the position at which the
scan stops, which lies behind the end if the last character is to be escaped. From the position
`recovery` on the scan recovers. -/
def run (recovery : Option Int) : Nat → Scan → Text → Nat × Scan
  | position, scan, [] => (position + scan.escaped.toNat, scan)
  | position, scan, c :: rest =>
      match scan.step (recoversAt recovery position) c with
      | none => (position, scan)
      | some next => run recovery (position + 1) next rest

end Scan

end Typeahead.Selector
