import Typeahead.Completion.Values
import Typeahead.Fuzzy.Ranking

/-!
# Completions at the caret

The focus of a selector decides what is offered: names of fields, names of operators, or values.
Each completion is highlighted where it agrees with the typed part, and keeps the node that it
would change.
-/

namespace Typeahead

open Selector (Node Focus Sought CompletionKind)
open Fuzzy (Prices QueryError)

/-- A text that is offered at the caret. -/
structure Completion where
  text : Text
  kind : CompletionKind
  /-- The text in stretches, every second one of which agrees with the typed part. -/
  highlight : List Text
  /-- The node that the completion changes. -/
  context : Node

namespace Completion

/-- The texts that are offered at a focus. -/
def textsAt (focus : Focus) (schema : Schema) : List Text :=
  match focus.sought with
  | .name .fields typed? others =>
      fieldTexts Float.log (typed?.getD []) schema focus.path others
  | .name .operators typed? others =>
      operatorTexts (typed?.getD []) (schema.flags? focus.path) others
  | .value typed choices => choiceTexts typed (schema.flags? focus.path) choices

/-- The typed part with which the texts at a focus are compared. -/
def comparedPart (sought : Sought) : Text :=
  match sought with
  | .name .fields _ _ => sought.typed.afterLast '.'
  | .name .operators _ _ => sought.typed
  | .value .. => sought.typed.trim

/-- The completions at a focus. -/
def atFocus (focus : Focus) (schema : Schema) : Except QueryError (List Completion) :=
  (textsAt focus schema).mapM fun text => do
    let highlight ← Fuzzy.highlight (Prices.standard (κ := Float)) text (comparedPart focus.sought)
    return { text, kind := focus.sought.kind, highlight, context := focus.context }

/-- The completions for a selector; none without a schema, and none where nothing is written. -/
def all (tree : Node) (schema? : Option Schema) :
    Except QueryError (List Completion) :=
  match schema?, tree.locate with
  | some schema, some focus => atFocus focus schema
  | _, _ => .ok []

end Completion

end Typeahead
