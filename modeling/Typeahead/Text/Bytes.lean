import Typeahead.Text.Basic

/-!
# Bytes

Bytes are given by their hexadecimal digits, two for each byte. They may be read as a text, if they
are the UTF-8 form of one.
-/

namespace Typeahead

/-- The value of a hexadecimal digit. -/
def hexDigit? (c : Char) : Option Nat :=
  if '0' ≤ c && c ≤ '9' then some (c.toNat - '0'.toNat)
  else if 'a' ≤ c && c ≤ 'f' then some (c.toNat - 'a'.toNat + 10)
  else if 'A' ≤ c && c ≤ 'F' then some (c.toNat - 'A'.toNat + 10)
  else none

namespace Text

/-- The bytes that hexadecimal digits denote. -/
def bytes? : Text → Option (List UInt8)
  | [] => some []
  | [_] => none
  | high :: low :: rest =>
      match hexDigit? high, hexDigit? low, bytes? rest with
      | some high, some low, some others => some (UInt8.ofNat (16 * high + low) :: others)
      | _, _, _ => none

/-- The text that bytes spell in UTF-8, if they spell one. -/
def ofUtf8? (bytes : List UInt8) : Option Text :=
  bytes.toByteArray.utf8Decode?.map Array.toList

/-- Bytes are read as the text whose UTF-8 form they are, and there is none for other bytes. -/
theorem ofUtf8?_eq_some_iff {bytes : List UInt8} {text : Text} :
    ofUtf8? bytes = some text ↔ bytes.toByteArray = text.utf8Encode := by
  rw [ofUtf8?, Option.map_eq_some_iff]
  constructor
  · rintro ⟨characters, read, rfl⟩
    have decodes : bytes.toByteArray.utf8Decode?.isSome := Option.isSome_of_eq_some read
    have spelled := @ByteArray.utf8Encode_get_utf8Decode? _ decodes
    rw [Option.get_of_eq_some decodes read] at spelled
    exact spelled.symm
  · intro spelled
    rw [spelled]
    exact ⟨_, List.utf8Decode?_utf8Encode, rfl⟩

end Text

end Typeahead
