import Typeahead.Selector.Node

/-!
# Outlines

The outline of a tree is what is left of it without places and carets: how objects and arrays are
nested, the names of the keys in their order, and the values in the leaves.
-/

namespace Typeahead.Selector

/-- A tree without places and carets. -/
inductive Outline where
  | leaf (value : Text)
  /-- Properties in their order; a property without a key has no name. -/
  | object (properties : List (Option Text × Outline))
  | array (values : List Outline)

mutual

/-- The outline of a node. A leaf shows the value in its span. -/
def Node.outline : Node → Outline
  | .span raw _ _ => .leaf raw.value
  | .object _ _ _ properties => .object (propertyOutlines properties)
  | .array _ _ _ values => .array (valueOutlines values)

/-- The outlines of properties. -/
def propertyOutlines : List (Option Key × Node) → List (Option Text × Outline)
  | [] => []
  | (key?, value) :: more => (key?.map Key.name, value.outline) :: propertyOutlines more

/-- The outlines of values. -/
def valueOutlines : List Node → List Outline
  | [] => []
  | value :: more => value.outline :: valueOutlines more

end

end Typeahead.Selector
