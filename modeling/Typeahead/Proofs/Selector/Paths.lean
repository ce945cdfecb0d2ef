import Typeahead.Proofs.Selector.Cursor

/-!
# Paths in trees

A path lists the indices of the elements on the way from the root of a tree to one of its nodes.
In the tree that is read for a written one each path leads to the node of a written subtree, and
the layers around the subtree are those on the way. A change at the end of the path is then a
change of the subtree in its context.
-/

namespace Typeahead.Selector

/-! ## Following a path -/

/-- The node at the end of a path. -/
def Node.at? : List Nat → Node → Option Node
  | [], node => some node
  | index :: path, .object _ _ _ properties =>
      properties[index]?.bind fun property => Node.at? path property.2
  | index :: path, .array _ _ _ values => values[index]?.bind (Node.at? path)
  | _ :: _, .span .. => none

namespace Outline

/-- Change what is at the end of a path. -/
def modifyAt (change : Outline → Outline) : List Nat → Outline → Outline
  | [], outline => change outline
  | index :: path, .object properties =>
      .object (properties.modify index fun property =>
        (property.1, modifyAt change path property.2))
  | index :: path, .array values => .array (values.modify index (modifyAt change path))
  | _ :: _, .leaf value => .leaf value

/-- One more property behind those of an object. -/
def addProperty (name : Text) (value : Outline) : Outline → Outline
  | .object properties => .object (properties ++ [(some name, value)])
  | other => other

/-- One more value behind those of an array. -/
def addValue (value : Outline) : Outline → Outline
  | .array values => .array (values ++ [value])
  | other => other

end Outline

/-! ## Trees whose keys have colons -/

/-- A colon stands behind each key of the tree. -/
inductive Written.HasColons : Written → Prop
  | atom {before text after : Text} : HasColons (.atom before text after)
  | object {before after : Text} {properties : List (Heading × Written)} {rest? : Option Text} :
      (∀ property ∈ properties, property.1.colon = true) →
        (∀ property ∈ properties, HasColons property.2) →
          HasColons (.object before properties rest? after)
  | array {before after : Text} {values : List Written} {rest? : Option Text} :
      (∀ value ∈ values, HasColons value) → HasColons (.array before values rest? after)

/-! ## Elements at an index -/

section

variable {rest? : Option Text} {start index : Nat} {caret : Caret}

/-- The property at an index is read for the written one there. -/
theorem exists_property_of_getElem? {properties : List (Heading × Written)}
    (colons : ∀ property ∈ properties, property.1.colon = true) {property : Option Key × Node}
    (found : (headedNodes rest? start caret properties).1[index]? = some property) :
    ∃ earlier heading value later caret comma, properties = earlier ++ (heading, value) :: later ∧
      earlier.length = index ∧
        property.2 =
          value.node (start + (propertyOffset earlier + heading.text.length)) caret comma := by
  induction properties generalizing start caret index with
  | nil => contradiction
  | cons first more inductionHypothesis =>
      rcases first with ⟨heading, value⟩
      have colon : heading.colon = true := colons (heading, value) List.mem_cons_self
      have others := fun other member => colons other (List.mem_cons_of_mem (heading, value) member)
      rw [headedNodes] at found
      cases index with
      | zero =>
          have place : heading.consumed = propertyOffset [] + heading.text.length := by
            rw [Heading.consumed_of_colon colon, propertyOffset, propertyTexts, terminated,
              List.length_nil, Nat.zero_add]
          rw [List.getElem?_cons_zero, Option.some.injEq, place] at found
          exact ⟨[], heading, value, more, _, _, rfl, rfl, by rw [← found]⟩
      | succ index =>
          rw [List.getElem?_cons_succ] at found
          obtain ⟨earlier, other, inner, later, caret, comma, rfl, rfl, same⟩ :=
            inductionHypothesis others found
          refine ⟨(heading, value) :: earlier, other, inner, later, caret, comma, rfl, rfl, ?_⟩
          rw [same, @propertyOffset_cons (heading, value) colon]
          simp only [Nat.add_assoc]

/-- The value at an index is read for the written one there. -/
theorem exists_value_of_getElem? {values : List Written} {node : Node}
    (found : (writtenNodes rest? start caret values).1[index]? = some node) :
    ∃ earlier value later caret comma, values = earlier ++ value :: later ∧
      earlier.length = index ∧ node = value.node (start + valueOffset earlier) caret comma := by
  induction values generalizing start caret index with
  | nil => contradiction
  | cons value more inductionHypothesis =>
      rw [writtenNodes] at found
      cases index with
      | zero =>
          rw [List.getElem?_cons_zero, Option.some.injEq] at found
          exact ⟨[], value, more, _, _, rfl, rfl, found.symm⟩
      | succ index =>
          rw [List.getElem?_cons_succ] at found
          obtain ⟨earlier, inner, later, caret, comma, rfl, rfl, same⟩ := inductionHypothesis found
          refine ⟨value :: earlier, inner, later, caret, comma, rfl, rfl, ?_⟩
          rw [same, valueOffset_cons, Nat.add_assoc start]

end

/-! ## The context at the end of a path -/

/-- A subtree in its context: the node at the end of a path is read for it, and a change there is
a change of its outline. -/
structure Reaches (written : Written) (start : Nat) (path : List Nat) (node : Node)
    (layers : List Layer) (inner : Written) : Prop where
  filled : written = filled layers inner
  node : ∃ caret comma, node = inner.node (start + (ahead layers).length) caret comma
  outline : ∀ change, written.outline.modifyAt change path =
    outlineAround layers (change inner.outline)
  colons : inner.HasColons

theorem modify_append_cons {α : Type} (earlier : List α) (element : α) (later : List α)
    (change : α → α) :
    (earlier ++ element :: later).modify earlier.length change =
      earlier ++ change element :: later :=
  List.modifyTailIdx_add (List.modifyHead change) 0 earlier (element :: later)

/-- One more layer around a context. -/
theorem Reaches.under {layer : Layer} {written : Written} {start index : Nat} {path : List Nat}
    {node : Node} {layers : List Layer} {inner : Written}
    (reaches : Reaches written (start + layer.leading.length) path node layers inner)
    (outline : ∀ change, (layer.plug written).outline.modifyAt change (index :: path) =
      layer.outlineAround (written.outline.modifyAt change path)) :
    Reaches (layer.plug written) start (index :: path) node (layer :: layers) inner where
  filled := congrArg layer.plug reaches.filled
  node := by
    obtain ⟨caret, comma, same⟩ := reaches.node
    refine ⟨caret, comma, ?_⟩
    rw [same, ahead, List.length_append, Nat.add_assoc]
  outline change := by
    rw [outline, reaches.outline]
    rfl
  colons := reaches.colons

/-- A path in the tree that is read for a written one leads to a subtree. -/
theorem Written.HasColons.exists_reaches {written : Written} (colons : written.HasColons)
    {start : Nat} {caret : Caret} {comma : Bool} {path : List Nat} {node : Node}
    (found : (written.node start caret comma).at? path = some node) :
    ∃ layers inner, Reaches written start path node layers inner := by
  induction path generalizing written start caret comma with
  | nil =>
      refine ⟨[], written, rfl, ⟨caret, comma, ?_⟩, fun _ => rfl, colons⟩
      exact (Option.some.inj found).symm
  | cons index path inductionHypothesis =>
      cases colons with
      | atom => contradiction
      | @object before after properties rest? colons values =>
          rw [Written.node, Node.at?] at found
          obtain ⟨property, within, deeper⟩ := Option.bind_eq_some_iff.mp found
          obtain ⟨earlier, heading, value, later, caret, comma, rfl, rfl, same⟩ :=
            exists_property_of_getElem? colons within
          rw [same, Nat.add_assoc start, ← @Layer.length_leading_property rest? earlier later
            heading before after] at deeper
          obtain ⟨layers, inner, reaches⟩ := inductionHypothesis (values (heading, value)
            (List.mem_append_right _ List.mem_cons_self)) deeper
          have length : (headedOutlines earlier).length = earlier.length := by
            rw [headedOutlines_eq_map, List.length_map]
          refine ⟨_, inner, reaches.under fun change => ?_⟩
          rw [Layer.outline_plug, Layer.outlineAround, Outline.modifyAt, ← length,
            modify_append_cons]
          rfl
      | @array before after values rest? colons =>
          rw [Written.node, Node.at?] at found
          obtain ⟨element, within, deeper⟩ := Option.bind_eq_some_iff.mp found
          obtain ⟨earlier, value, later, caret, comma, rfl, rfl, rfl⟩ :=
            exists_value_of_getElem? within
          rw [Nat.add_assoc start, ← @Layer.length_leading_value rest? before after earlier
            later] at deeper
          obtain ⟨layers, inner, reaches⟩ := inductionHypothesis (colons value
            (List.mem_append_right _ List.mem_cons_self)) deeper
          have length : (writtenOutlines earlier).length = earlier.length := by
            rw [writtenOutlines_eq_map, List.length_map]
          refine ⟨_, inner, reaches.under fun change => ?_⟩
          rw [Layer.outline_plug, Layer.outlineAround, Outline.modifyAt, ← length,
            modify_append_cons]
          rfl

end Typeahead.Selector
