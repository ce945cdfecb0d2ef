import Typeahead.Json.Basic
import Typeahead.Decimal.Literal
import Typeahead.Text.Bytes

/-!
# Reading JSON

A reader for one JSON value with nothing but space around it. Besides the standard it reads the
words for the doubles that are not finite. In an object with a repeated key the last value
counts, at the place of the first. An escape for half of a surrogate pair stands for the
replacement character.

Each step consumes a character, so the length of the text bounds the number of nested steps.
-/

namespace Typeahead.Json

/-- The four characters between tokens. -/
def isSpace (c : Char) : Bool :=
  c == ' ' || c == '\t' || c == '\n' || c == '\r'

/-- Drop the space before a token. -/
def skipSpace (text : Text) : Text :=
  text.dropWhile isSpace

/-! ## Texts -/

/-- The number that four hexadecimal digits denote, and what follows them. -/
def fourHexDigits? : Text → Option (Nat × Text)
  | a :: b :: c :: d :: rest =>
      match hexDigit? a, hexDigit? b, hexDigit? c, hexDigit? d with
      | some a, some b, some c, some d => some (((a * 16 + b) * 16 + c) * 16 + d, rest)
      | _, _, _, _ => none
  | _ => none

/-- The character for a code point; the replacement character for half of a surrogate pair. -/
def characterAt (code : Nat) : Char :=
  if 0xD800 ≤ code && code ≤ 0xDFFF then Char.ofNat 0xFFFD else Char.ofNat code

/-- The second half of a surrogate pair, if an escape for one comes next. -/
def lowSurrogate? : Text → Option (Nat × Text)
  | '\\' :: 'u' :: rest =>
      match fourHexDigits? rest with
      | some (code, rest) =>
          if 0xDC00 ≤ code && code ≤ 0xDFFF then some (code - 0xDC00, rest) else none
      | none => none
  | _ => none

/-- The character of an escape, after its backslash. -/
def escape? : Text → Option (Char × Text)
  | '"' :: rest => some ('"', rest)
  | '\\' :: rest => some ('\\', rest)
  | '/' :: rest => some ('/', rest)
  | 'b' :: rest => some (Char.ofNat 8, rest)
  | 'f' :: rest => some (Char.ofNat 12, rest)
  | 'n' :: rest => some ('\n', rest)
  | 'r' :: rest => some ('\r', rest)
  | 't' :: rest => some ('\t', rest)
  | 'u' :: rest =>
      match fourHexDigits? rest with
      | none => none
      | some (code, rest) =>
          match lowSurrogate? rest with
          | some (low, afterLow) =>
              if 0xD800 ≤ code && code ≤ 0xDBFF then
                some (Char.ofNat (0x10000 + (code - 0xD800) * 0x400 + low), afterLow)
              else
                some (characterAt code, rest)
          | none => some (characterAt code, rest)
  | _ => none

/-- The text up to the closing quote, and what follows it. -/
def textBody : Nat → Text → Text → Option (Text × Text)
  | 0, _, _ => none
  | fuel + 1, reversed, input =>
      match input with
      | [] => none
      | '"' :: rest => some (reversed.reverse, rest)
      | '\\' :: rest =>
          match escape? rest with
          | some (c, rest) => textBody fuel (c :: reversed) rest
          | none => none
      | c :: rest => if c.toNat < 0x20 then none else textBody fuel (c :: reversed) rest

/-! ## Numbers -/

/-- The characters that a number is made of. -/
def isNumberCharacter (c : Char) : Bool :=
  Decimal.isAsciiDigit c || c == '-' || c == '+' || c == '.' || c == 'e' || c == 'E'

/-- No zero stands before another digit. -/
def hasPlainWhole (text : Text) : Bool :=
  match text with
  | '0' :: c :: _ => !Decimal.isAsciiDigit c
  | c :: _ => Decimal.isAsciiDigit c
  | [] => false

/-- Digits stand on both sides of a point, if there is one. -/
def hasPlainFraction (text : Text) : Bool :=
  match text.dropWhile Decimal.isAsciiDigit with
  | '.' :: rest => rest.head?.any Decimal.isAsciiDigit
  | _ => true

/-- A number: an integer without point and exponent, a double with either. -/
def number? (text : Text) : Option Json :=
  let magnitude := match text with
    | '-' :: rest => rest
    | _ => text
  if !(hasPlainWhole magnitude && hasPlainFraction magnitude) then none
  else if magnitude.all Decimal.isAsciiDigit then (Decimal.plainInteger? text).map .integer
  else (Decimal.plainDouble? text).map .double

/-! ## Values -/

/-- The words, with the values that they denote. -/
def words : List (Text × Json) :=
  [("null", .null), ("true", .bool true), ("false", .bool false), ("NaN", .double (0 / 0)),
    ("Infinity", .double (1 / 0)), ("-Infinity", .double (-1 / 0))]

/-- A value without parts: a word or a number. -/
def scalar? (text : Text) : Option (Json × Text) :=
  match words.find? fun word => word.1.isPrefixOf text with
  | some (word, value) => some (value, text.drop word.length)
  | none =>
      (number? (text.takeWhile isNumberCharacter)).map fun number =>
        (number, text.dropWhile isNumberCharacter)

mutual

/-- Read a value, and return what follows it. -/
def readValue : Nat → Text → Option (Json × Text)
  | 0, _ => none
  | fuel + 1, input =>
      match skipSpace input with
      | '"' :: rest => (textBody rest.length.succ [] rest).map fun (value, rest) => (.text value, rest)
      | '[' :: rest =>
          match skipSpace rest with
          | ']' :: rest => some (.array [], rest)
          | rest => (readElements fuel rest).map fun (elements, rest) => (.array elements, rest)
      | '{' :: rest =>
          match skipSpace rest with
          | '}' :: rest => some (.object [], rest)
          | rest =>
              (readMembers fuel rest).map fun (members, rest) => (.object (Entries.ofList members), rest)
      | rest => scalar? rest

/-- Read the elements of an array up to its closing bracket. -/
def readElements : Nat → Text → Option (List Json × Text)
  | 0, _ => none
  | fuel + 1, input =>
      match readValue fuel input with
      | none => none
      | some (element, rest) =>
          match skipSpace rest with
          | ',' :: rest =>
              (readElements fuel rest).map fun (elements, rest) => (element :: elements, rest)
          | ']' :: rest => some ([element], rest)
          | _ => none

/-- Read the members of an object up to its closing brace. -/
def readMembers : Nat → Text → Option (List (Text × Json) × Text)
  | 0, _ => none
  | fuel + 1, input =>
      match skipSpace input with
      | '"' :: rest =>
          match textBody rest.length.succ [] rest with
          | none => none
          | some (key, rest) =>
              match skipSpace rest with
              | ':' :: rest =>
                  match readValue fuel rest with
                  | none => none
                  | some (value, rest) =>
                      match skipSpace rest with
                      | ',' :: rest =>
                          (readMembers fuel rest).map fun (members, rest) =>
                            ((key, value) :: members, rest)
                      | '}' :: rest => some ([(key, value)], rest)
                      | _ => none
              | _ => none
      | _ => none

end

/-- Read a text that holds one JSON value. -/
def parse? (text : Text) : Option Json :=
  match readValue (2 * text.length + 1) text with
  | some (value, rest) => if (skipSpace rest).isEmpty then some value else none
  | none => none

end Typeahead.Json
