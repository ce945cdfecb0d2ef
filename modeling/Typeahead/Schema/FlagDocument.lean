import Typeahead.Schema.Basic
import Typeahead.Text.Bytes
import Typeahead.Text.Quoted

/-!
# Flag documents

The written form of flags: a document that gives a value to each kind that was seen. The value is
the list of the values of the kind, or `true` if they are not listed. What is read may be looser:
a value that does not count as set says nothing, any other value than a list stands for `true`,
numbers may be written as texts or truth values, and texts as bytes.
-/

namespace Typeahead.Schema

open Document (Value Words Number)

/-- Why a flag document cannot be read. -/
inductive FlagError where
  /-- It gives a value to a kind that there is not. -/
  | unknownKind (name : Text)
  /-- It lists a value that does not belong to its kind. -/
  | illTyped
  deriving DecidableEq

/-- What is told about a kind that there is not. -/
def FlagError.message? : FlagError → Option Text
  | unknownKind name => some (name.quoted ++ " is not a valid BsonKind")
  | illTyped => none

/-- A document that gives values to kinds by their names. -/
abbrev FlagDocument := Entries Value

/-- A listed text, which bytes may spell. -/
def textOf? : Value → Option Text
  | .text value => some value.text
  | .binary digits => digits.bytes?.bind Text.ofUtf8?
  | _ => none

/-- A listed number, which a text or bytes may tell. -/
def numberOf? : Value → Option Float
  | .number value => value.toDouble?
  | .long value => (Number.integer value).toDouble?
  | .bool value => some (if value then 1 else 0)
  | value => (textOf? value).bind Decimal.fieldDouble?

/-- Read the values of a kind that is listed. -/
def listingOf? {α : Type} (read : Value → Option α) : Value → Option (Listing α)
  | .array [] => some .absent
  | .array elements => (elements.mapM read).map .listed
  | value => some (if value.isSet then .unlisted else .absent)

/-- The first name that is no kind. -/
def unknownKind? (document : FlagDocument) : Option Text :=
  document.keys.find? fun name => (Kind.ofName? name).isNone

/-- The value of a kind, which is null if there is none. -/
def flagOf (document : FlagDocument) (kind : Kind) : Value :=
  (document.find? kind.name).getD .null

namespace Flags

/-- Read a flag document. -/
def ofDocument (document : FlagDocument) : Except FlagError (Flags Float Text) :=
  match unknownKind? document with
  | some name => .error (.unknownKind name)
  | none =>
      match listingOf? numberOf? (flagOf document .double),
          listingOf? textOf? (flagOf document .string) with
      | some numbers, some texts =>
          .ok
            { numbers, texts
              others := fun kind => !kind.isListed && (flagOf document kind).isSet }
      | _, _ => .error .illTyped

/-- The value that is written for a kind, if there is a value of the kind. -/
def valueFor? (flags : Flags Float Text) (kind : Kind) : Option Value :=
  let listed? : Option (List Value) := match kind with
    | .double => flags.numbers.values?.map (List.map fun value => .number (.double value))
    | .string => flags.texts.values?.map (List.map fun value => .text { text := value })
    | _ => none
  if flags.has kind then some ((listed?.map Value.array).getD (.bool true)) else none

/-- The flag document of flags. -/
def toDocument (flags : Flags Float Text) : FlagDocument :=
  Kind.all.filterMap fun kind => (flags.valueFor? kind).map fun value => (kind.name, value)

end Flags

/-- Read the flag documents of fields, in their order. -/
def flagsOfDocuments : Entries FlagDocument → Except FlagError (Entries (Flags Float Text))
  | [] => .ok []
  | (path, document) :: rest => do
      let flags ← Flags.ofDocument document
      let others ← flagsOfDocuments rest
      return (path, flags) :: others

/-- Read the schema whose fields have flag documents. -/
def ofDocuments (fields : Entries FlagDocument) (sampled : Int) : Except FlagError Schema :=
  (flagsOfDocuments fields).map fun flags => ofFlags flags sampled

/-- The flag documents of the fields. -/
def toDocuments (schema : Schema) : Entries FlagDocument :=
  schema.fields.map fun (path, profile) => (path, profile.flags.toDocument)

end Typeahead.Schema
