import Typeahead.Proofs.Selector.Extent

/-!
# The walk to the caret

Each step of the walk goes from a node to the element that holds the caret. Here the steps are
stated without the bookkeeping that shows the walk to end. What the walk finds belongs to a node
of the tree, and what is typed there fits the node.
-/

namespace Typeahead.Selector

variable {path raw : Text} {start : Nat} {cursor : Option Nat}

/-! ## Steps -/

/-- The walk goes from a property of a selector into its value. -/
def locateProperty (path : Text) (property : Option Key × Node) : Option Focus :=
  if propertyName property ∈ logicalOperators then locateOperand path property.2
  else locateFieldValue (joinPath path (propertyName property)) property.2

/-- The values of an operator that holds an array. -/
def locateArrayValue (path : Text) : Node → Option Focus
  | .array raw start cursor values =>
      locateElement (.array raw start cursor values) cursor values path
  | _ => none

/-- The walk goes from an operator into its value. -/
def locateOperatorValue (path : Text) (property : Option Key × Node) : Option Focus :=
  match operatorChoices? (propertyName property) property.2.raw.value with
  | some choices => some (.atValue property.2 path choices)
  | none =>
      if propertyName property ∈ arrayOperators then locateArrayValue path property.2
      else if propertyName property = "$not".toList then locateOperators path property.2
      else if propertyName property = "$elemMatch".toList then locateSelector path property.2
      else none

theorem locateSelector_object (properties : List (Option Key × Node)) :
    locateSelector path (.object raw start cursor properties) =
      cursor.bind fun index =>
        (locateName (.object raw start cursor properties) properties index .fields path).or
          (properties[index]?.bind (locateProperty path)) := by
  rw [locateSelector]
  congr 1
  funext index
  split
  · rename_i absent
    rw [absent, Option.bind_none]
  · rename_i found
    dsimp only
    rw [found, Option.bind_some]
    rfl

theorem locateOperand_array (values : List Node) :
    locateOperand path (.array raw start cursor values) =
      cursor.bind fun index => values[index]?.bind (locateSelector path) := by
  rw [locateOperand]
  congr 1
  funext index
  split
  · rename_i absent
    rw [absent, Option.bind_none]
  · rename_i found
    dsimp only
    rw [found, Option.bind_some]

theorem locateOperators_object (properties : List (Option Key × Node)) :
    locateOperators path (.object raw start cursor properties) =
      if (properties.map propertyName).any fun name => name.head? ≠ some '$' then
        some (.atValue (.object raw start cursor properties) path .sampled)
      else
        cursor.bind fun index =>
          (locateName (.object raw start cursor properties) properties index .operators path).or
            (properties[index]?.bind (locateOperatorValue path)) := by
  rw [locateOperators]
  congr 2
  funext index
  congr 1
  split
  · rename_i absent
    rw [absent, Option.bind_none]
  · rename_i key value found
    cases value <;>
      · dsimp only
        rw [found, Option.bind_some]
        rfl

/-! ## What is found -/

/-- An array with the caret behind its last element. -/
def Node.IsBehindLast : Node → Prop
  | .array _ _ cursor values => ∃ index, cursor = some index ∧ values[index]? = none
  | _ => False

/-- The typed part of a value is all of its node, and nothing behind the last element of an
array. -/
def Focus.Fits (focus : Focus) : Prop :=
  ∀ typed choices, focus.sought = .value typed choices →
    typed = focus.context.raw.value ∨ typed = [] ∧ focus.context.IsBehindLast

/-- The typed part of a name begins a key of the object. -/
def Focus.Spells (focus : Focus) : Prop :=
  ∀ vocabulary typed others, focus.sought = .name vocabulary (some typed) others →
    ∃ raw start cursor properties, focus.context = .object raw start cursor properties ∧
      ∃ key value, (some key, value) ∈ properties ∧ typed <+: key.name

/-- A focus belongs to a node or to one below it, and its typed part fits. -/
structure Focus.Below (whole : Node) (focus : Focus) : Prop where
  part : whole.Part focus.context
  fits : focus.Fits
  spells : focus.Spells

theorem Focus.Below.of_part {whole node : Node} {focus : Focus} (below : focus.Below node)
    (outer : whole.Part node) : focus.Below whole where
  part := outer.trans below.part
  fits := below.fits
  spells := below.spells

theorem below_atValue (node : Node) (path : Text) (choices : Choices) :
    (Focus.atValue node path choices).Below node where
  part := .root
  fits := by
    rintro _ _ ⟨⟩
    exact .inl rfl
  spells := by
    rintro _ _ _ ⟨⟩

/-- A name is written in the object with the caret: a new one behind the last property, or that of a
key that has the caret. -/
theorem of_locateName {object : Node} {properties : List (Option Key × Node)} {index : Nat}
    {vocabulary : Vocabulary} {focus : Focus}
    (named : locateName object properties index vocabulary path = some focus) :
    focus.context = object ∧
      ((properties[index]? = none ∧ ∃ others, focus.sought = .name vocabulary none others) ∨
        ∃ key value offset others, properties[index]? = some (some key, value) ∧
          key.cursor = some offset ∧
          focus.sought = .name vocabulary (some (key.name.take offset)) others) := by
  simp only [locateName] at named
  split at named
  · rename_i absent
    rw [← Option.some.inj named]
    exact ⟨rfl, .inl ⟨absent, _, rfl⟩⟩
  · rename_i key? value here
    obtain ⟨key, rfl, named⟩ := Option.bind_eq_some_iff.mp named
    obtain ⟨offset, cursor, rfl⟩ := Option.map_eq_some_iff.mp named
    exact ⟨rfl, .inr ⟨key, value, offset, _, here, cursor, rfl⟩⟩

theorem below_of_locateName {properties : List (Option Key × Node)} {index : Nat}
    {vocabulary : Vocabulary} {focus : Focus}
    (found : locateName (.object raw start cursor properties) properties index vocabulary path =
      some focus) :
    focus.Below (.object raw start cursor properties) := by
  obtain ⟨context, sought⟩ := of_locateName found
  constructor
  · rw [context]
    exact .root
  · intro typed choices value
    rcases sought with ⟨_, _, name⟩ | ⟨_, _, _, _, _, _, name⟩
    · rw [name] at value
      contradiction
    · rw [name] at value
      contradiction
  · intro other typed names same
    rcases sought with ⟨_, _, name⟩ | ⟨key, value, _, _, here, _, name⟩
    · rw [name] at same
      cases same
    · rw [name] at same
      cases same
      exact ⟨_, _, _, _, context, key, value, List.mem_of_getElem? here, List.take_prefix _ _⟩

theorem below_of_locateElement {values : List Node} {focus : Focus}
    (found : locateElement (.array raw start cursor values) cursor values path = some focus) :
    focus.Below (.array raw start cursor values) := by
  rcases Option.map_eq_some_iff.mp found with ⟨index, here, rfl⟩
  split
  · rename_i element within
    exact (below_atValue element path .sampled).of_part
      (.value .root (List.mem_of_getElem? within))
  · rename_i absent
    refine ⟨.root, ?_, by rintro _ _ _ ⟨⟩⟩
    rintro _ _ ⟨⟩
    exact .inr ⟨rfl, index, here, absent⟩

theorem context_of_locateName {object : Node} {properties : List (Option Key × Node)} {index : Nat}
    {vocabulary : Vocabulary} {focus : Focus}
    (named : locateName object properties index vocabulary path = some focus) :
    focus.context = object :=
  (of_locateName named).1

/-- An element is written where it stands, and a new one in the array. -/
theorem context_of_locateElement {array : Node} {index : Nat} {values : List Node}
    {focus : Focus} (found : locateElement array (some index) values path = some focus) :
    values[index]? = some focus.context ∨ focus.context = array := by
  simp only [locateElement, Option.map_some, Option.some.injEq] at found
  subst found
  split
  · rename_i here
    exact .inl here
  · exact .inr rfl

/-! ## How it is found -/

/-- Choices as the walk gives them: those of the sample, or those of an operator. -/
def Choices.Given (choices : Choices) : Prop :=
  choices = .sampled ∨ ∃ operator typed, operatorChoices? operator typed = some choices

/-- A focus is what the walk comes to in a tree: a name or a value at the caret of an object, or an
element at the caret of an array. -/
inductive Focus.Arises (tree : Node) (focus : Focus) : Prop
  | name {raw path : Text} {start index : Nat} {properties : List (Option Key × Node)}
      {vocabulary : Vocabulary} (part : tree.Part (.object raw start (some index) properties))
      (named : locateName (.object raw start (some index) properties) properties index vocabulary
        path = some focus)
  /-- The caret stands in the property of the value, but not in its name. -/
  | value {raw path : Text} {start index : Nat} {properties : List (Option Key × Node)}
      {key? : Option Key} {value : Node} {choices : Choices}
      (part : tree.Part (.object raw start (some index) properties))
      (here : properties[index]? = some (key?, value)) (outside : key?.bind Key.cursor = none)
      (written : focus = .atValue value path choices) (given : choices.Given)
  | element {raw path : Text} {start index : Nat} {values : List Node}
      (part : tree.Part (.array raw start (some index) values))
      (located : locateElement (.array raw start (some index) values) (some index) values path =
        some focus)

theorem Focus.Arises.of_part {whole tree : Node} {focus : Focus} (arises : focus.Arises tree)
    (outer : whole.Part tree) : focus.Arises whole := by
  cases arises with
  | name part named => exact .name (outer.trans part) named
  | value part here outside written given =>
      exact .value (outer.trans part) here outside written given
  | element part located => exact .element (outer.trans part) located

theorem Focus.Arises.below {tree : Node} {focus : Focus} (arises : focus.Arises tree) :
    focus.Below tree := by
  cases arises with
  | name part named => exact (below_of_locateName named).of_part part
  | value part here _ written _ =>
      subst written
      exact (below_atValue _ _ _).of_part (.property part (List.mem_of_getElem? here))
  | element part located => exact (below_of_locateElement located).of_part part

/-- A focus is a value that is written at a node. -/
def Focus.IsValueAt (focus : Focus) (node : Node) : Prop :=
  ∃ path choices, focus = .atValue node path choices ∧ choices.Given

/-- What the walk finds from a node, wherever it comes from. The value of a property can be what is
written itself. -/
structure Arising (node : Node) : Prop where
  selector : ∀ {path focus}, locateSelector path node = some focus → focus.Arises node
  operand : ∀ {path focus}, locateOperand path node = some focus → focus.Arises node
  fieldValue : ∀ {path focus}, locateFieldValue path node = some focus →
    focus.IsValueAt node ∨ focus.Arises node
  operators : ∀ {path focus}, locateOperators path node = some focus →
    focus.IsValueAt node ∨ focus.Arises node

theorem arises_of_locateElement {values : List Node} {focus : Focus}
    (found : locateElement (.array raw start cursor values) cursor values path = some focus) :
    focus.Arises (.array raw start cursor values) := by
  cases cursor with
  | none => contradiction
  | some index => exact .element .root found

theorem arises_of_locateArrayValue {node : Node} {focus : Focus}
    (found : locateArrayValue path node = some focus) : focus.Arises node := by
  cases node with
  | span => contradiction
  | object => contradiction
  | array raw start cursor values => exact arises_of_locateElement found

theorem Arising.property {property : Option Key × Node} (arising : Arising property.2)
    {focus : Focus} (found : locateProperty path property = some focus) :
    focus.IsValueAt property.2 ∨ focus.Arises property.2 := by
  unfold locateProperty at found
  split at found
  · exact .inr (arising.operand found)
  · exact arising.fieldValue found

theorem Arising.operatorValue {property : Option Key × Node} (arising : Arising property.2)
    {focus : Focus} (found : locateOperatorValue path property = some focus) :
    focus.IsValueAt property.2 ∨ focus.Arises property.2 := by
  unfold locateOperatorValue at found
  split at found
  · rename_i choices offers
    exact .inl ⟨_, choices, (Option.some.inj found).symm, .inr ⟨_, _, offers⟩⟩
  · split at found
    · exact .inr (arises_of_locateArrayValue found)
    · split at found
      · exact arising.operators found
      · split at found
        · exact .inr (arising.selector found)
        · contradiction

/-- Without a name at a property the caret stands outside of the name of its key. -/
theorem outside_of_locateName_eq_none {object : Node} {properties : List (Option Key × Node)}
    {index : Nat} {vocabulary : Vocabulary} {key? : Option Key} {value : Node}
    (nameless : locateName object properties index vocabulary path = none)
    (here : properties[index]? = some (key?, value)) : key?.bind Key.cursor = none := by
  simp only [locateName, here] at nameless
  cases key? with
  | none => rfl
  | some key => exact Option.map_eq_none_iff.mp nameless

/-- What is found in an object is its own name, the value of the property at the caret, or comes
from that value. -/
theorem arises_of_property {properties : List (Option Key × Node)} {vocabulary : Vocabulary}
    {descend : Option Key × Node → Option Focus} {focus : Focus}
    (arising : ∀ property ∈ properties, ∀ {focus}, descend property = some focus →
      focus.IsValueAt property.2 ∨ focus.Arises property.2)
    (found : (cursor.bind fun index =>
      (locateName (.object raw start cursor properties) properties index vocabulary path).or
        (properties[index]?.bind descend)) = some focus) :
    focus.Arises (.object raw start cursor properties) := by
  obtain ⟨index, rfl, either⟩ := Option.bind_eq_some_iff.mp found
  rcases Option.or_eq_some_iff.mp either with named | ⟨nameless, deeper⟩
  · exact .name .root named
  · obtain ⟨⟨key?, value⟩, here, descended⟩ := Option.bind_eq_some_iff.mp deeper
    have member := List.mem_of_getElem? here
    rcases arising _ member descended with ⟨_, _, written, given⟩ | below
    · exact .value .root here (outside_of_locateName_eq_none nameless here) written given
    · exact below.of_part (.property .root member)

theorem arising_span (raw : Text) (start : Nat) (cursor : Option Nat) :
    Arising (.span raw start cursor) where
  selector found := by simp [locateSelector] at found
  operand found := by simp [locateOperand] at found
  fieldValue found := by
    rw [locateFieldValue] at found
    exact .inl ⟨_, _, (Option.some.inj found).symm, .inl rfl⟩
  operators found := by simp [locateOperators] at found

theorem arising_object {properties : List (Option Key × Node)}
    (below : ∀ property ∈ properties, Arising property.2) :
    Arising (.object raw start cursor properties) := by
  have operators {path : Text} {focus : Focus}
      (found : locateOperators path (.object raw start cursor properties) = some focus) :
      focus.IsValueAt (.object raw start cursor properties) ∨
        focus.Arises (.object raw start cursor properties) := by
    rw [locateOperators_object] at found
    split at found
    · exact .inl ⟨_, _, (Option.some.inj found).symm, .inl rfl⟩
    · exact .inr (arises_of_property (fun property member => (below property member).operatorValue)
        found)
  constructor
  · intro path focus found
    rw [locateSelector_object] at found
    exact arises_of_property (fun property member => (below property member).property) found
  · intro path focus found
    simp [locateOperand] at found
  · intro path focus found
    rw [locateFieldValue] at found
    exact operators found
  · intro path focus found
    exact operators found

theorem arising_array {values : List Node} (below : ∀ value ∈ values, Arising value) :
    Arising (.array raw start cursor values) where
  selector found := by simp [locateSelector] at found
  operand found := by
    rw [locateOperand_array] at found
    obtain ⟨index, _, found⟩ := Option.bind_eq_some_iff.mp found
    obtain ⟨value, here, descended⟩ := Option.bind_eq_some_iff.mp found
    have member := List.mem_of_getElem? here
    exact ((below value member).selector descended).of_part (.value .root member)
  fieldValue found := by
    rw [locateFieldValue] at found
    exact .inr (arises_of_locateElement found)
  operators found := by simp [locateOperators] at found

theorem arising (node : Node) : Arising node := by
  induction node using Node.induction with
  | span raw start cursor => exact arising_span raw start cursor
  | object raw start cursor properties below => exact arising_object below
  | array raw start cursor values below => exact arising_array below

theorem Node.arises_of_locate {tree : Node} {focus : Focus} (found : tree.locate = some focus) :
    focus.Arises tree :=
  (arising tree).selector found

/-- The choices at a focus are those of the sample or those of an operator. -/
theorem Focus.Arises.given {tree : Node} {focus : Focus} (arises : focus.Arises tree)
    {typed : Text} {choices : Choices} (sought : focus.sought = .value typed choices) :
    choices.Given := by
  cases arises with
  | name part named =>
      rcases (of_locateName named).2 with ⟨_, _, name⟩ | ⟨_, _, _, _, _, _, name⟩
      · rw [name] at sought
        contradiction
      · rw [name] at sought
        contradiction
  | value part here outside written given =>
      rw [written] at sought
      cases sought
      exact given
  | element part located =>
      obtain ⟨index, _, rfl⟩ := Option.map_eq_some_iff.mp located
      split at sought
      · cases sought
        exact .inl rfl
      · cases sought
        exact .inl rfl

/-- A name at a focus is written in an object with the caret. -/
theorem Focus.Arises.exists_locateName {tree : Node} {focus : Focus} (arises : focus.Arises tree)
    {vocabulary : Vocabulary} {typed? : Option Text} {others : List Text}
    (sought : focus.sought = .name vocabulary typed? others) :
    ∃ raw start index properties path,
      focus.context = .object raw start (some index) properties ∧
        locateName focus.context properties index vocabulary path = some focus := by
  cases arises with
  | @name raw path start index properties other part named =>
      have same : other = vocabulary := by
        rcases (of_locateName named).2 with ⟨_, _, name⟩ | ⟨_, _, _, _, _, _, name⟩
        · rw [name] at sought
          exact (Sought.name.inj sought).1
        · rw [name] at sought
          exact (Sought.name.inj sought).1
      have context := context_of_locateName named
      rw [← context, same] at named
      exact ⟨raw, start, index, properties, path, context, named⟩
  | value part here outside written given =>
      rw [written] at sought
      contradiction
  | element part located =>
      obtain ⟨index, _, rfl⟩ := Option.map_eq_some_iff.mp located
      split at sought
      · contradiction
      · contradiction

/-- The caret points at a node of the tree, and what is typed there fits it. -/
theorem Node.below_of_locate {tree : Node} {focus : Focus} (found : tree.locate = some focus) :
    focus.Below tree :=
  (arises_of_locate found).below

/-- What the caret of a text points at was looked into as a chunk of the text. -/
theorem exists_chunk_of_locate {text : Text} {caret : Int} {focus : Focus}
    (located : (parse text caret).locate = some focus) :
    ∃ chunk : Chunk, chunk.Lies text 0 ∧ chunk.node = focus.context := by
  have lies : (Source.mk text 0 (if caret < 0 then none else some caret)).Lies text 0 :=
    ⟨Nat.le_refl 0, Shows.whole _⟩
  obtain ⟨chunk, within, looked, _⟩ :=
    lies.takeValue.1.exists_of_part (Node.below_of_locate located).part
  exact ⟨chunk, within, looked⟩

end Typeahead.Selector
