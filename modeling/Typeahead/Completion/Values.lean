import Typeahead.Completion.Fields
import Typeahead.Text.Escape

/-!
# Completing operators and values

Which operators are offered depends on the kinds of values that a field has. As values those are
offered that a sample has shown and that begin with the typed part, and after them a placeholder
for each kind.
-/

namespace Typeahead.Completion

open Schema (Kind Flags)
open Selector (offeredQuote truthValues Choices)

/-- The operators that every field can have. -/
def commonOperators : List Text :=
  ["$eq", "$ne", "$gt", "$gte", "$lt", "$lte", "$in", "$nin", "$not", "$type"]

/-- The operators that a field can have only with some flags, with these flags. -/
def furtherOperators {ν τ : Type} (flags : Flags ν τ) : List (Text × Bool) :=
  [("$exists", flags.nullable), ("$mod", flags.has .double),
    ("$elemMatch", flags.has .array && flags.has .object), ("$size", flags.has .array),
    ("$all", flags.has .array)]

/-- The operators that a field with some flags can have besides. -/
def operatorsFor {ν τ : Type} (flags : Flags ν τ) : List Text :=
  ((furtherOperators flags).filter (·.2)).map (·.1)

/-- The completions of the name of an operator. The sign in front may be left out. -/
def operatorTexts (typed : Text) (flags? : Option (Flags Float Text)) (others : List Text) :
    List Text :=
  let operators := commonOperators ++ (flags?.map operatorsFor).getD []
  let typed := if typed.head? = some '$' then typed else '$' :: typed
  let found := operators.filter fun operator =>
    !others.contains operator && typed.isPrefixOf operator
  (found.mergeSort Text.notAfter).take offerLimit

/-- The values that begin with the typed part in any case, without repetitions. -/
def beginning (values : List Text) (typed : Text) : List Text :=
  let typed := typed.lower
  (Text.sortedSet (values.filter fun value => typed.isPrefixOf value.lower)).take offerLimit

/-- The placeholder for the values of a kind. -/
def placeholder (kind : Kind) : Text :=
  '(' :: kind.name ++ [')']

/-- The values that a sample of a field has shown, as they are written in a selector. -/
def sampledValues (flags : Flags Float Text) (quote : Char) : List Text :=
  ((flags.numbers.values?.getD []).map fun value => (Document.Number.double value).text) ++
    ((flags.texts.values?.getD []).map fun value => quote :: value.escape ++ [quote]) ++
    (if flags.has .bool then truthValues else [])

/-- The completions of a value of a field. -/
def valueTexts (typed : Text) (flags? : Option (Flags Float Text)) : List Text :=
  match flags? with
  | none => []
  | some flags =>
      let typed := typed.trim
      beginning (sampledValues flags (offeredQuote typed)) typed ++
        (Kind.all.filter flags.has).map placeholder

/-- The completions of a value for which the choices are known. -/
def choiceTexts (typed : Text) (flags? : Option (Flags Float Text)) : Choices → List Text
  | .sampled => valueTexts typed flags?
  | .listed texts filtered => if filtered then beginning texts typed.trim else texts

end Typeahead.Completion
