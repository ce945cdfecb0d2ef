/-!
# Texts

A text is the list of its code points, so that every index, length and caret of this library
counts code points. This module holds the type, the character classes that read a fixed and
short list of code points, and the cuts on texts that the other modules share: trimming blanks,
cutting after the last mark, and cutting into pieces.
-/

namespace Typeahead

/-- A text is the list of its code points. -/
abbrev Text := List Char

/-- Texts are equal if they compare as equal. -/
instance : LawfulBEq Text := List.instLawfulBEq

/-- A string literal stands for its code points where a text is expected. -/
instance : Coe String Text := ⟨String.toList⟩

/-- Inclusive ranges of code points, in increasing order. -/
abbrev CodeRanges := List (Nat × Nat)

/-- A character lies in one of the ranges. -/
def CodeRanges.holds (ranges : CodeRanges) (c : Char) : Bool :=
  ranges.any fun range => range.1 ≤ c.toNat && c.toNat ≤ range.2

/-- The code points that count as blank: those that Unicode 14.0.0 gives the property `White_Space`,
and the four information separators. -/
def blankRanges : CodeRanges :=
  [(0x09, 0x0D), (0x1C, 0x20), (0x85, 0x85), (0xA0, 0xA0), (0x1680, 0x1680), (0x2000, 0x200A),
    (0x2028, 0x2029), (0x202F, 0x202F), (0x205F, 0x205F), (0x3000, 0x3000)]

/-- Blanks separate tokens and are trimmed from the ends of values. -/
def isBlank (c : Char) : Bool :=
  blankRanges.holds c

/-- The two characters that open and close a quoted stretch. -/
def isQuote (c : Char) : Bool :=
  c == '\'' || c == '"'

namespace Text

/-! ## Trimming -/

/-- A text without any character other than blanks. -/
def isBlank (text : Text) : Bool :=
  text.all Typeahead.isBlank

/-- Drop the blanks at the start. -/
def trimLeft (text : Text) : Text :=
  text.dropWhile Typeahead.isBlank

/-- Drop the blanks at the end. -/
def trimRight (text : Text) : Text :=
  (text.reverse.dropWhile Typeahead.isBlank).reverse

/-- Drop the blanks at both ends. -/
def trim (text : Text) : Text :=
  trimRight (trimLeft text)

/-- The blanks at the start. -/
def leadingBlanks (text : Text) : Text :=
  text.takeWhile Typeahead.isBlank

/-- The value in a raw span: no blanks around it and no comma after it. -/
def value (raw : Text) : Text :=
  let trimmed := trim raw
  if trimmed.getLast? = some ',' then trimRight trimmed.dropLast else trimmed

theorem leadingBlanks_append_trimLeft (text : Text) :
    leadingBlanks text ++ trimLeft text = text :=
  List.takeWhile_append_dropWhile

theorem trimLeft_length_le (text : Text) : (trimLeft text).length ≤ text.length := by
  have whole := congrArg List.length (leadingBlanks_append_trimLeft text)
  simp only [List.length_append] at whole
  omega

/-! ## Cuts at a mark -/

/-- The text up to its last mark, the mark included; empty without a mark. -/
def throughLast (mark : Char) (text : Text) : Text :=
  (text.reverse.dropWhile (· != mark)).reverse

/-- The text after its last mark; all of it without a mark. -/
def afterLast (mark : Char) (text : Text) : Text :=
  (text.reverse.takeWhile (· != mark)).reverse

theorem throughLast_append_afterLast (mark : Char) (text : Text) :
    throughLast mark text ++ afterLast mark text = text := by
  rw [throughLast, afterLast, ← List.reverse_append, List.takeWhile_append_dropWhile,
    List.reverse_reverse]

/-- The pieces between marks; a text without a mark is one piece. -/
def pieces (mark : Char) : Text → List Text
  | [] => [[]]
  | c :: rest =>
      if c = mark then
        [] :: pieces mark rest
      else
        match pieces mark rest with
        | [] => [[c]]
        | piece :: others => (c :: piece) :: others

theorem pieces_ne_nil (mark : Char) (text : Text) : pieces mark text ≠ [] := by
  cases text with
  | nil => simp [pieces]
  | cons c rest =>
      rw [pieces]
      split
      · simp
      · split <;> simp

/-- The position of the first occurrence of a character. -/
def indexOf? (c : Char) (text : Text) : Option Nat :=
  text.findIdx? (· == c)

/-! ## Sorting -/

/-- The order of texts, by the first code point in which they differ; a text comes before those
that go on behind it. The first text does not come after the second one. -/
def notAfter : Text → Text → Bool
  | [], _ => true
  | _ :: _, [] => false
  | c :: first, d :: second => c.toNat < d.toNat || c == d && notAfter first second

/-- Texts in the order of their code points, without repetitions. -/
def sortedSet (texts : List Text) : List Text :=
  texts.eraseDups.mergeSort notAfter

end Text

end Typeahead
