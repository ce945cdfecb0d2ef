import Typeahead.Schema.Basic

/-!
# Surveys of documents

A survey folds documents one by one into the flags of their fields. An array shares its path with
its elements. A field is flagged null if a document shows it to be null or absent: if an object
lacks a name that an earlier object at its path had, if an object brings a name that the earlier
ones lacked, and if an array stands where fields are known.

Beside the flags a survey keeps a shape: for each path the names that were seen below it. Paths
are texts, so that names with points in them may share a path with others; shapes keep them
apart.
-/

namespace Typeahead.Schema

open Document (Value Words Number Name)

/-- The names seen below a path, with the shapes there; none if neither an object nor an array
was seen at the path. -/
inductive Shape where
  | mk (children : Option (List (Text × Shape)))

/-- The names seen below a path. -/
def Shape.children? : Shape → Option (Entries Shape)
  | mk children => children

/-- The flags of a survey: the values that it lists are as they were in the documents. -/
abbrev SurveyFlags := Flags Number Words

namespace SurveyFlags

/-- The number of values up to which a field lists them. -/
def listLimit : Nat := 10

/-- The length up to which a text is listed. -/
def textLimit : Nat := 50

/-- Note a number. -/
def addNumber (flags : SurveyFlags) (number : Number) : SurveyFlags :=
  { flags with numbers := flags.numbers.add listLimit Number.same number }

/-- Note a text; a long one ends the list. -/
def addText (flags : SurveyFlags) (words : Words) : SurveyFlags :=
  { flags with
    texts :=
      if textLimit < words.text.length then .unlisted
      else flags.texts.add listLimit (fun first second => first = second) words }

end SurveyFlags

/-- The flags of the paths in the order in which they were first seen. -/
abbrev Table := Entries SurveyFlags

namespace Table

/-- The path of a name below a path. -/
def below (path name : Text) : Text :=
  if path.isEmpty then name else path ++ '.' :: name

/-- Note a kind at a path. -/
def mark (table : Table) (path : Text) (kind : Kind) : Table :=
  table.modify path (·.mark kind)

/-- Note that the fields with some names below a path may be absent. -/
def markNull (table : Table) (path : Text) (names : List Text) : Table :=
  names.foldl (fun table name => table.mark (below path name) .null) table

/-- Give a path flags if it has none. -/
def touch (table : Table) (path : Text) : Table :=
  table.upsert path {} id

end Table

/-- The names known at a shape that an object lacks. -/
def missing (known : Entries Shape) (fields : List (Name × Value)) : List Text :=
  known.keys.filter fun name => fields.all fun field => field.1 ≠ .text name

mutual

/-- Note a value at a path. -/
def visit (path : Text) (shape : Shape) (table : Table) : Value → Shape × Table
  | .number number => (shape, table.modify path (·.addNumber number))
  | .text words => (shape, table.modify path (·.addText words))
  | .array elements =>
      let known := shape.children?.getD []
      let table := (table.mark path .array).markNull path known.keys
      visitElements path (.mk (some known)) table elements
  | .object fields =>
      let known := shape.children?.getD []
      let table := (table.mark path .object).markNull path (missing known fields)
      visitFields path shape.children?.isSome known table fields
  | value =>
      (shape, ((Kind.ofValue? value).map (table.mark path)).getD table)

/-- Note the elements of an array at the path of the array. -/
def visitElements (path : Text) (shape : Shape) (table : Table) : List Value → Shape × Table
  | [] => (shape, table)
  | element :: rest =>
      let visited := visit path shape table element
      visitElements path visited.1 visited.2 rest

/-- Note the fields of an object. Where the path was seen before, a new name may be absent. -/
def visitFields (path : Text) (seen : Bool) (known : Entries Shape) (table : Table) :
    List (Name × Value) → Shape × Table
  | [] => (.mk (some known), table)
  | (name, value) :: rest =>
      let name := name.spelled
      let child := Table.below path name
      let table := table.touch child
      let isNew := (known.find? name).isNone
      let table := if isNew && seen then table.mark child .null else table
      let visited := visit child ((known.find? name).getD (.mk none)) table value
      visitFields path seen (known.insert name visited.1) visited.2 rest

end

/-- What documents have shown. -/
structure Survey where
  shape : Shape := .mk none
  /-- The flags by path; the document itself has the empty path. -/
  table : Table := [([], {})]
  /-- The number of documents. -/
  count : Nat := 0

namespace Survey

/-- Fold one document into the survey. -/
def add (survey : Survey) (document : List (Name × Value)) : Survey :=
  let visited := visit [] survey.shape survey.table (.object document)
  { shape := visited.1, table := visited.2, count := survey.count + 1 }

/-- Fold documents into the survey. -/
def addAll (survey : Survey) (documents : List (List (Name × Value))) : Survey :=
  documents.foldl add survey

/-- The listed values of a kind, each turned into another form. -/
def convert? {α β : Type} (turn : α → Option β) : Listing α → Option (Listing β)
  | .absent => some .absent
  | .unlisted => some .unlisted
  | .listed values => (values.mapM turn).map .listed

/-- The flags with doubles for all numbers; none if a number is beyond the range of doubles. -/
def finish? (flags : SurveyFlags) : Option (Flags Float Text) :=
  (convert? Number.toDouble? flags.numbers).bind fun numbers =>
    (convert? (fun words : Words => some words.text) flags.texts).map fun texts =>
      { numbers, texts, others := flags.others }

/-- The schema of the documents; none if a listed number is beyond the range of doubles. The
document itself is no field. -/
def schema? (survey : Survey) : Option Schema :=
  let fields := survey.table.filter fun entry => !entry.1.isEmpty
  let finished := fields.mapM fun (entry : Text × SurveyFlags) =>
    (finish? entry.2).map fun flags => (entry.1, flags)
  finished.map fun fields => Schema.ofFlags fields survey.count

end Survey

end Typeahead.Schema
