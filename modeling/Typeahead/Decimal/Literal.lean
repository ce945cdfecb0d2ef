import Typeahead.Decimal.Digit

/-!
# Number literals

Texts that are read as numbers. A plain literal is written with the ten common digits. A setting
may moreover be written with digits of any script, with blanks around it, and with single
underscores between digits. A request field may be a plain literal with blanks around it and
underscores inside; an integer field may moreover start with zeros, if it is not negative, and end
in a point and zeros.
-/

namespace Typeahead.Decimal

/-! ## Plain literals -/

/-- The nearest double to `digits * 10 ^ exponent`; beyond the range it is infinite, and below
half of the least double it is zero. -/
def nearestDouble (digits : Nat) (exponent : Int) : Float :=
  let magnitude := (natDigits digits).length + exponent
  if digits = 0 || magnitude < -400 then 0
  else if 400 < magnitude then 1 / 0
  else Float.ofScientific digits (exponent < 0) exponent.natAbs

/-- A literal without its sign, and whether the sign is a minus. -/
def splitSign : Text → Bool × Text
  | '-' :: rest => (true, rest)
  | '+' :: rest => (false, rest)
  | text => (false, text)

/-- The number that a row of at least one digit denotes. -/
def natural? (text : Text) : Option Nat :=
  if !text.isEmpty && text.all isAsciiDigit then some (natOfDigits text) else none

/-- An integer literal: a sign and digits. -/
def plainInteger? (text : Text) : Option Int :=
  let (negative, magnitude) := splitSign text
  (natural? magnitude).map fun n => if negative then -(n : Int) else n

/-- The exponent of a literal, which may be missing. -/
def exponent? : Text → Option Int
  | [] => some 0
  | 'e' :: rest | 'E' :: rest => plainInteger? rest
  | _ => none

/-- The magnitude of a literal: digits with at most one point and an exponent, or a word. -/
def magnitude? (text : Text) : Option Float :=
  let word := text.map Char.toLower
  if word = "inf".toList || word = "infinity".toList then some (1 / 0)
  else if word = "nan".toList then some (0 / 0)
  else
    let whole := text.takeWhile isAsciiDigit
    let afterWhole := text.dropWhile isAsciiDigit
    let (fraction, afterFraction) :=
      match afterWhole with
      | '.' :: rest => (rest.takeWhile isAsciiDigit, rest.dropWhile isAsciiDigit)
      | rest => ([], rest)
    if whole.isEmpty && fraction.isEmpty then none
    else
      (exponent? afterFraction).map fun exponent =>
        nearestDouble (natOfDigits (whole ++ fraction)) (exponent - fraction.length)

/-- A literal for a double. -/
def plainDouble? (text : Text) : Option Float :=
  let (negative, magnitude) := splitSign text
  (magnitude? magnitude).map fun value => if negative then -value else value

/-! ## Blanks and underscores -/

/-- The blanks that may stand around a number: the information separators are not among them. -/
def isNumberBlank (c : Char) : Bool :=
  isBlank c && !(0x1C ≤ c.toNat && c.toNat ≤ 0x1F)

/-- Drop the blanks around a number. -/
def trimNumber (text : Text) : Text :=
  ((text.dropWhile isNumberBlank).reverse.dropWhile isNumberBlank).reverse

/-- Write the digits of every script with the ten common ones. -/
def commonDigits (text : Text) : Text :=
  text.map fun c =>
    match digit? c with
    | some n => Nat.digitChar n
    | none => c

/-- Drop the underscores, each of which has to stand between two digits; `afterDigit` tells
whether a digit precedes the text. -/
def joinGroups (afterDigit : Bool) : Text → Option Text
  | [] => some []
  | c :: rest =>
      if c = '_' then
        if afterDigit && (rest.head?.any isAsciiDigit) then joinGroups false rest else none
      else
        (joinGroups (isAsciiDigit c) rest).map (c :: ·)

/-- Drop the underscores, none of which may stand at an end or beside another. -/
def joinPieces (text : Text) : Option Text :=
  let pieces := text.pieces '_'
  if pieces.any List.isEmpty then none else some pieces.flatten

/-! ## Settings and request fields -/

/-- An integer setting. -/
def settingInteger? (text : Text) : Option Int :=
  (joinGroups false (commonDigits (trimNumber text))).bind plainInteger?

/-- A setting that is a double. -/
def settingDouble? (text : Text) : Option Float :=
  (joinGroups false (commonDigits (trimNumber text))).bind plainDouble?

/-- An integer literal without a plus sign and without a zero in front of another digit. -/
def strictInteger? (text : Text) : Option Int :=
  let magnitude := if text.head? = some '-' then text.drop 1 else text
  let padded := magnitude.head? = some '0' && 1 < magnitude.length
  if padded || text.head? = some '+' then none else plainInteger? text

/-- Drop a point and the zeros after it from the end of a literal. -/
def dropZeroFraction (text : Text) : Text :=
  let whole := text.takeWhile (· != '.')
  if (text.drop (whole.length + 1)).all (· == '0') then whole else text

/-- Drop the plus sign in front of a literal; a second sign cannot follow it. -/
def dropPlus (text : Text) : Option Text :=
  match text with
  | '+' :: '-' :: _ => none
  | '+' :: rest => some rest
  | text => some text

/-- Drop the zeros at the start of a positive literal, with the underscores among them, but keep
the last one where no other digit follows. Nothing is dropped from a negative literal. -/
def dropZeros (text : Text) : Option Text :=
  match text with
  | '-' :: _ => some text
  | '0' :: rest =>
      let isPadding := fun (c : Char) => c == '0' || c == '_'
      let last := (rest.takeWhile isPadding).getLast?.getD '0'
      match rest.dropWhile isPadding with
      | [] => some [last]
      | '.' :: fraction => some (last :: '.' :: fraction)
      | c :: others => if isAsciiDigit c then some (c :: others) else none
  | c :: _ => if isAsciiDigit c then some text else none
  | [] => none

/-- An integer field of a request that is given as a text. -/
def fieldInteger? (text : Text) : Option Int :=
  (strictInteger? text).orElse fun _ =>
    ((dropPlus (trimNumber text)).bind dropZeros).bind fun literal =>
      (joinPieces (dropZeroFraction literal)).bind strictInteger?

/-- A field of a request that is a double and given as a text. -/
def fieldDouble? (text : Text) : Option Float :=
  (plainDouble? (trimNumber text)).orElse fun _ => (joinPieces text).bind plainDouble?

end Typeahead.Decimal
