import Typeahead.Selector.Node
import Typeahead.Text.Quoted

/-!
# What the caret points at

A selector is an object whose keys are field names or logical operators. A field has a value, an
array of values, or an object whose keys are operators; some operators hold values, some hold
objects of operators or selectors again. Walking down the tree along the caret tells what is
being written: the name of a field, the name of an operator, or a value, and for which field.

The walk needs no schema.
-/

namespace Typeahead.Selector

/-! ## Operators -/

/-- The operators that combine selectors. -/
def logicalOperators : List Text :=
  ["$or", "$and", "$nor"]

/-- The operators that compare with one value. -/
def comparisonOperators : List Text :=
  ["$eq", "$ne", "$gt", "$gte", "$lt", "$lte"]

/-- The operators that compare with an array of values. -/
def arrayOperators : List Text :=
  ["$in", "$nin", "$all"]

/-- The names of the kinds that a value can be required to have. -/
def kindNames : List Text :=
  ["double", "string", "object", "array", "binData", "objectId", "bool", "date", "null", "regex",
    "javascript", "javascriptWithScope", "int", "timestamp", "long", "minKey", "maxKey", "number"]

/-- The two truth values. -/
def truthValues : List Text :=
  ["true", "false"]

/-- The quote that a value of strings is offered with: the quotation mark if the typed value
starts with one, and the apostrophe otherwise. -/
def offeredQuote (typed : Text) : Char :=
  if typed.trim.head? = some '"' then '"' else '\''

/-! ## The focus -/

/-- The two vocabularies of names. -/
inductive Vocabulary where
  | fields
  | operators
  deriving DecidableEq, Repr

/-- Which values fit at a place. -/
inductive Choices where
  /-- Those that a sample of the field has shown. -/
  | sampled
  /-- The listed ones; only those that begin with the typed value, if `filtered`. -/
  | listed (texts : List Text) (filtered : Bool)
  deriving DecidableEq, Repr

/-- What is being written. -/
inductive Sought where
  /-- A name, of which a part may be typed; `others` are the other names of the object. -/
  | name (vocabulary : Vocabulary) (typed? : Option Text) (others : List Text)
  /-- A value, of which a part may be typed. -/
  | value (typed : Text) (choices : Choices)
  deriving DecidableEq, Repr

/-- What the caret points at. -/
structure Focus where
  sought : Sought
  /-- The field whose value is written, or the field that encloses the name. -/
  path : Text
  /-- The node that a completion changes. -/
  context : Node

/-- What a completion replaces. -/
inductive CompletionKind where
  | field
  | operator
  | value
  | newProperty
  deriving DecidableEq, Repr

namespace CompletionKind

/-- All kinds of completions. -/
def all : List CompletionKind :=
  [field, operator, value, newProperty]

/-- The name of a kind. -/
def name : CompletionKind → Text
  | field => "field"
  | operator => "operator"
  | value => "value"
  | newProperty => "newProperty"

/-- Why a text is no kind of completions. -/
inductive NameError where
  | unknown (name : Text)
  deriving DecidableEq, Repr

/-- What is told about a text that is no kind. -/
def NameError.message : NameError → Text
  | unknown name => name.quoted ++ " is not a valid SuggestionKind"

/-- The kind with a name. -/
def ofName? (name : Text) : Except NameError CompletionKind :=
  match all.find? (·.name == name) with
  | some kind => .ok kind
  | none => .error (.unknown name)

end CompletionKind

/-- The kind of the completions at a focus. -/
def Sought.kind : Sought → CompletionKind
  | .name _ none _ => .newProperty
  | .name .fields (some _) _ => .field
  | .name .operators (some _) _ => .operator
  | .value .. => .value

/-- The typed part; empty where nothing is typed. -/
def Sought.typed : Sought → Text
  | .name _ typed? _ => typed?.getD []
  | .value typed _ => typed

/-! ## The walk -/

/-- The path of a name under a path. -/
def joinPath (path name : Text) : Text :=
  if path.isEmpty then name else path ++ '.' :: name

/-- The name of a property; empty without a key. -/
def propertyName (property : Option Key × Node) : Text :=
  property.1.elim [] Key.name

/-- A value that is written at a node. -/
def Focus.atValue (node : Node) (path : Text) (choices : Choices) : Focus :=
  { sought := .value node.raw.value choices, path, context := node }

/-- A value in an array: the element that holds the caret, or a new one behind the last. -/
def locateElement (array : Node) (cursor : Option Nat) (values : List Node) (path : Text) :
    Option Focus :=
  cursor.map fun index =>
    match values[index]? with
    | some element => .atValue element path .sampled
    | none => { sought := .value [] .sampled, path, context := array }

/-- A property with the caret in its key, or the place behind the last property. -/
def locateName (object : Node) (properties : List (Option Key × Node)) (index : Nat)
    (vocabulary : Vocabulary) (path : Text) : Option Focus :=
  let names := properties.map propertyName
  match properties[index]? with
  | none => some { sought := .name vocabulary none names, path, context := object }
  | some (key?, _) =>
      key?.bind fun key =>
        key.cursor.map fun offset =>
          { sought := .name vocabulary (some (key.name.take offset)) (names.eraseIdx index)
            path
            context := object }

/-- The choices of the operators that hold one value. -/
def operatorChoices? (operator typed : Text) : Option Choices :=
  if operator ∈ comparisonOperators then
    some .sampled
  else if operator = "$exists".toList then
    some (.listed truthValues false)
  else if operator = "$type".toList then
    let quote := offeredQuote typed
    some (.listed (kindNames.map fun name => quote :: name ++ [quote]) true)
  else if operator = "$mod".toList then
    some (.listed ["[divisor, remainder]"] false)
  else if operator = "$size".toList then
    some (.listed ["(number)"] false)
  else
    none

mutual

/-- Walk down a node that is a selector under a path. -/
def locateSelector (path : Text) : Node → Option Focus
  | .object raw start cursor properties =>
      cursor.bind fun index =>
        let object := Node.object raw start cursor properties
        (locateName object properties index .fields path).or <|
          match _found : properties[index]? with
          | none => none
          | some (key?, value) =>
              let name := propertyName (key?, value)
              have : sizeOf value < sizeOf properties := by
                have bound := List.sizeOf_lt_of_mem (List.mem_of_getElem? _found)
                simp only [Prod.mk.sizeOf_spec] at bound
                omega
              if name ∈ logicalOperators then
                locateOperand path value
              else
                locateFieldValue (joinPath path name) value
  | _ => none
termination_by node => (sizeOf node, 1)

/-- Walk down the element of an array of selectors that holds the caret. -/
def locateOperand (path : Text) : Node → Option Focus
  | .array _ _ cursor values =>
      cursor.bind fun index =>
        match _found : values[index]? with
        | none => none
        | some element =>
            have : sizeOf element < sizeOf values :=
              List.sizeOf_lt_of_mem (List.mem_of_getElem? _found)
            locateSelector path element
  | _ => none
termination_by node => (sizeOf node, 0)

/-- Walk down the value of a field. -/
def locateFieldValue (path : Text) : Node → Option Focus
  | .span raw start cursor => some (.atValue (.span raw start cursor) path .sampled)
  | .array raw start cursor values =>
      locateElement (.array raw start cursor values) cursor values path
  | .object raw start cursor properties =>
      locateOperators path (.object raw start cursor properties)
termination_by node => (sizeOf node, 1)

/-- Walk down an object whose keys are operators; with any other key it is a value. -/
def locateOperators (path : Text) : Node → Option Focus
  | .object raw start cursor properties =>
      let object := Node.object raw start cursor properties
      if (properties.map propertyName).any fun name => name.head? ≠ some '$' then
        some (.atValue object path .sampled)
      else
        cursor.bind fun index =>
          (locateName object properties index .operators path).or <|
            match _found : properties[index]? with
            | none => none
            | some (key?, value) =>
                let name := propertyName (key?, value)
                have : sizeOf value < sizeOf properties := by
                  have bound := List.sizeOf_lt_of_mem (List.mem_of_getElem? _found)
                  simp only [Prod.mk.sizeOf_spec] at bound
                  omega
                match operatorChoices? name value.raw.value with
                | some choices => some (.atValue value path choices)
                | none =>
                    if name ∈ arrayOperators then
                      match value with
                      | .array raw start cursor values =>
                          locateElement (.array raw start cursor values) cursor values path
                      | _ => none
                    else if name = "$not".toList then
                      locateOperators path value
                    else if name = "$elemMatch".toList then
                      locateSelector path value
                    else
                      none
  | _ => none
termination_by node => (sizeOf node, 0)

end

/-- What the caret points at in a selector; nothing if the text is no object. -/
def Node.locate (node : Node) : Option Focus :=
  locateSelector [] node

end Typeahead.Selector
