import Typeahead.Proofs.Selector.Cursor
import Typeahead.Proofs.Selector.Walk

/-!
# The way to a name

The walk to a name goes through the layers around the object that has the name or gets it. Which
way it goes depends on the names in the layers, and not on what fills them.
-/

namespace Typeahead.Selector

/-! ## Stages of the walk -/

/-- What the walk takes a node for. -/
inductive Stage where
  /-- A selector under a path. -/
  | selector
  /-- An array of selectors. -/
  | operand
  /-- The value of a field. -/
  | fieldValue
  /-- An object whose keys are operators. -/
  | operators
  deriving DecidableEq, Repr

/-- The walk from a node. -/
def Stage.locate : Stage → Text → Node → Option Focus
  | selector => locateSelector
  | operand => locateOperand
  | fieldValue => locateFieldValue
  | operators => locateOperators

/-- What the value of a property of a selector is taken for. -/
def propertyStage (name : Text) : Stage :=
  if name ∈ logicalOperators then .operand else .fieldValue

/-- The path under which the value of a property of a selector stands. -/
def propertyPath (path name : Text) : Text :=
  if name ∈ logicalOperators then path else joinPath path name

/-- What the value of an operator is taken for, if there are names in it. -/
def operatorStage? (name : Text) : Option Stage :=
  if name = "$not".toList then some .operators
  else if name = "$elemMatch".toList then some .selector
  else none

/-- All names are names of operators. -/
def Dollared (names : List Text) : Prop :=
  ∀ name ∈ names, name.head? = some '$'

/-- A name is being written, and no value. -/
def Sought.IsName : Sought → Prop
  | .name .. => True
  | .value .. => False

theorem locateProperty_eq (path : Text) (property : Option Key × Node) :
    locateProperty path property =
      (propertyStage (propertyName property)).locate
        (propertyPath path (propertyName property)) property.2 := by
  unfold locateProperty propertyStage propertyPath
  split <;> rfl

theorem operatorChoices?_of_stage {name : Text} {stage : Stage}
    (known : operatorStage? name = some stage) (typed : Text) :
    operatorChoices? name typed = none ∧ name ∉ arrayOperators := by
  unfold operatorStage? at known
  split at known
  · rename_i same
    subst same
    exact ⟨rfl, by decide⟩
  · split at known
    · rename_i same
      subst same
      exact ⟨rfl, by decide⟩
    · contradiction

/-- The walk goes on in the value of an operator that has names in it. -/
theorem locateOperatorValue_of_stage {path : Text} {property : Option Key × Node} {stage : Stage}
    (known : operatorStage? (propertyName property) = some stage) :
    locateOperatorValue path property = stage.locate path property.2 := by
  obtain ⟨choices, notArray⟩ := operatorChoices?_of_stage known property.2.raw.value
  rw [locateOperatorValue, choices]
  simp only [notArray, if_false]
  unfold operatorStage? at known
  split at known
  · rename_i same
    rw [if_pos same, ← Option.some.inj known]
    rfl
  · rename_i other
    rw [if_neg other]
    split at known
    · rename_i same
      rw [if_pos same, ← Option.some.inj known]
      rfl
    · contradiction

theorem not_isName_of_locateArrayValue {path : Text} {node : Node} {focus : Focus}
    (found : locateArrayValue path node = some focus) : ¬focus.sought.IsName := by
  cases node with
  | span => contradiction
  | object => contradiction
  | array raw start cursor values =>
      rcases Option.map_eq_some_iff.mp found with ⟨index, _, rfl⟩
      split <;> exact id

/-- Where the walk finds a name in the value of an operator, the operator has names in it. -/
theorem exists_stage_of_locateOperatorValue {path : Text} {property : Option Key × Node}
    {focus : Focus} (found : locateOperatorValue path property = some focus)
    (isName : focus.sought.IsName) :
    ∃ stage, operatorStage? (propertyName property) = some stage ∧
      stage.locate path property.2 = some focus := by
  unfold locateOperatorValue at found
  split at found
  · rw [← Option.some.inj found] at isName
    contradiction
  · split at found
    · exact absurd isName (not_isName_of_locateArrayValue found)
    · split at found
      · rename_i same
        exact ⟨.operators, if_pos same, found⟩
      · rename_i other
        split at found
        · rename_i same
          exact ⟨.selector, (if_neg other).trans (if_pos same), found⟩
        · contradiction

/-! ## Layers on the way -/

/-- The names of the properties of a layer. -/
def Layer.names : Layer → List Text
  | .property _ earlier heading later _ _ =>
      writtenNames earlier ++ heading.name :: writtenNames later
  | .value .. => []

/-- The walk leads from a stage and a path through layers to names of a vocabulary under a path. -/
inductive Leads : Stage → Text → List Layer → Vocabulary → Text → Prop
  | fields {path : Text} : Leads .selector path [] .fields path
  | operators {path : Text} : Leads .operators path [] .operators path
  | fieldValue {path inner : Text} {layers : List Layer} {vocabulary : Vocabulary} :
      Leads .operators path layers vocabulary inner → Leads .fieldValue path layers vocabulary inner
  | property {path inner before : Text} {earlier later : List (Heading × Written)}
      {heading : Heading} {rest? : Option Text} {after : Text} {layers : List Layer}
      {vocabulary : Vocabulary} :
      Leads (propertyStage heading.name) (propertyPath path heading.name) layers vocabulary inner →
        Leads .selector path (.property before earlier heading later rest? after :: layers)
          vocabulary inner
  | operand {path inner before : Text} {earlier later : List Written} {rest? : Option Text}
      {after : Text} {layers : List Layer} {vocabulary : Vocabulary} :
      Leads .selector path layers vocabulary inner →
        Leads .operand path (.value before earlier later rest? after :: layers) vocabulary inner
  | operator {path inner before : Text} {earlier later : List (Heading × Written)}
      {heading : Heading} {rest? : Option Text} {after : Text} {layers : List Layer}
      {vocabulary : Vocabulary} {stage : Stage} :
      Dollared (Layer.property before earlier heading later rest? after).names →
        operatorStage? heading.name = some stage → Leads stage path layers vocabulary inner →
          Leads .operators path (.property before earlier heading later rest? after :: layers)
            vocabulary inner

/-- The walk for the names of a vocabulary. -/
def Vocabulary.stage : Vocabulary → Stage
  | fields => .selector
  | operators => .operators

/-! ## Names of objects -/

/-- The name that is written at the caret of an object. -/
def Node.nameAt (vocabulary : Vocabulary) (path : Text) : Node → Option Focus
  | .object raw start cursor properties =>
      cursor.bind fun index =>
        locateName (.object raw start cursor properties) properties index vocabulary path
  | _ => none

/-- The names of the properties of an object. -/
def Node.names : Node → List Text
  | .object _ _ _ properties => properties.map propertyName
  | _ => []

section

variable {raw path : Text} {start : Nat} {cursor : Option Nat}
  {properties : List (Option Key × Node)} {focus : Focus}

theorem any_not_dollar_eq_false_iff (names : List Text) :
    (names.any fun name => name.head? ≠ some '$') = false ↔ Dollared names := by
  simp [Dollared]

/-- The walk ends at an object in which a name is written at the caret. -/
theorem locate_of_nameAt {node : Node} {vocabulary : Vocabulary}
    (dollared : vocabulary = .operators → Dollared node.names)
    (named : node.nameAt vocabulary path = some focus) :
    vocabulary.stage.locate path node = some focus := by
  cases node with
  | span => contradiction
  | array => contradiction
  | object raw start cursor properties =>
      rcases Option.bind_eq_some_iff.mp named with ⟨index, here, found⟩
      cases vocabulary with
      | fields =>
          rw [Vocabulary.stage, Stage.locate, locateSelector_object]
          rw [here] at found ⊢
          rw [Option.bind_some, found, Option.some_or]
      | operators =>
          have allDollared := (any_not_dollar_eq_false_iff _).mpr (dollared rfl)
          rw [Node.names] at allDollared
          rw [Vocabulary.stage, Stage.locate, locateOperators_object, allDollared,
            if_neg Bool.false_ne_true]
          rw [here] at found ⊢
          rw [Option.bind_some, found, Option.some_or]

/-- What the walk finds at an index of an object is the name there, or below the property. -/
theorem nameAt_or_exists_of_bind {vocabulary : Vocabulary}
    {descend : Option Key × Node → Option Focus}
    (found : (cursor.bind fun index =>
      (locateName (.object raw start cursor properties) properties index vocabulary path).or
        (properties[index]?.bind descend)) = some focus) :
    (Node.object raw start cursor properties).nameAt vocabulary path = some focus ∨
      ∃ index property, cursor = some index ∧ properties[index]? = some property ∧
        descend property = some focus := by
  rcases Option.bind_eq_some_iff.mp found with ⟨index, here, either⟩
  rcases Option.or_eq_some_iff.mp either with named | ⟨_, deeper⟩
  · exact .inl (Option.bind_eq_some_iff.mpr ⟨index, here, named⟩)
  · rcases Option.bind_eq_some_iff.mp deeper with ⟨property, within, descended⟩
    exact .inr ⟨index, property, here, within, descended⟩

theorem nameAt_or_exists_of_locateSelector
    (found : locateSelector path (.object raw start cursor properties) = some focus) :
    (Node.object raw start cursor properties).nameAt .fields path = some focus ∨
      ∃ index property, cursor = some index ∧ properties[index]? = some property ∧
        locateProperty path property = some focus := by
  rw [locateSelector_object] at found
  exact nameAt_or_exists_of_bind found

/-- Where the walk finds a name in an object of operators, all names are names of operators. -/
theorem nameAt_or_exists_of_locateOperators
    (found : locateOperators path (.object raw start cursor properties) = some focus)
    (isName : focus.sought.IsName) :
    Dollared (properties.map propertyName) ∧
      ((Node.object raw start cursor properties).nameAt .operators path = some focus ∨
        ∃ index property, cursor = some index ∧ properties[index]? = some property ∧
          locateOperatorValue path property = some focus) := by
  rw [locateOperators_object] at found
  split at found
  · rw [← Option.some.inj found] at isName
    contradiction
  · rename_i allDollared
    rw [Bool.not_eq_true] at allDollared
    exact ⟨(any_not_dollar_eq_false_iff _).mp allDollared, nameAt_or_exists_of_bind found⟩

/-- At a property without the caret in its key no name is written. -/
theorem locateName_of_no_cursor {object : Node} {index : Nat} {key : Key} {value : Node}
    (here : properties[index]? = some (some key, value)) (behind : key.cursor = none)
    (vocabulary : Vocabulary) (path : Text) :
    locateName object properties index vocabulary path = none := by
  simp only [locateName, here, Option.bind_some, behind, Option.map_none]

/-- A name is found with its vocabulary, under the path of its object, and belongs to the object. -/
theorem of_nameAt {node : Node} {vocabulary : Vocabulary}
    (named : node.nameAt vocabulary path = some focus) :
    focus.path = path ∧ focus.context = node ∧
      ∃ typed? others, focus.sought = .name vocabulary typed? others := by
  cases node with
  | span => contradiction
  | array => contradiction
  | object raw start cursor properties =>
      rcases Option.bind_eq_some_iff.mp named with ⟨index, _, found⟩
      unfold locateName at found
      simp only at found
      split at found
      · rw [← Option.some.inj found]
        exact ⟨rfl, rfl, _, _, rfl⟩
      · rcases Option.bind_eq_some_iff.mp found with ⟨key, _, offset⟩
        rcases Option.map_eq_some_iff.mp offset with ⟨_, _, rfl⟩
        exact ⟨rfl, rfl, _, _, rfl⟩

end

end Typeahead.Selector
