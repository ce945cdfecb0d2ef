import Typeahead.Proofs.Selector.Descent
import Typeahead.Proofs.Selector.Respelling

/-!
# Blanks in names

The walk to a value takes names for operators or joins them to the path of a field. Here the tree
that is read is compared with the one in which no blanks belong to names. Where the walk comes to a
value in that tree, it comes to the same value under the same path in the tree that is read if
there are no blanks in the names on the way. With a blank in one of these names it never does so:
it stops, or the blank is in the path of whatever it comes to.
-/

namespace Typeahead

namespace Text

/-- The text without its blanks. -/
def withoutBlanks (text : Text) : Text :=
  text.filter fun c => !Typeahead.isBlank c

/-- There is no blank in a text. -/
def IsTight (text : Text) : Prop :=
  ∀ c ∈ text, Typeahead.isBlank c = false

instance (text : Text) : Decidable text.IsTight :=
  List.decidableBAll (fun c => Typeahead.isBlank c = false) text

variable {text : Text}

theorem withoutBlanks_eq_self_iff : text.withoutBlanks = text ↔ text.IsTight := by
  simp [withoutBlanks, IsTight]

theorem isTight_withoutBlanks (text : Text) : text.withoutBlanks.IsTight := by
  simp [withoutBlanks, IsTight]

end Text

namespace Selector

/-! ## Trees without blanks in names -/

/-- The key without the blanks in its name. -/
def Key.tight (key : Key) : Key :=
  { key with name := key.name.withoutBlanks }

mutual

/-- The tree without the blanks in its names. -/
def Node.tight : Node → Node
  | .span raw start cursor => .span raw start cursor
  | .object raw start cursor properties => .object raw start cursor (tightProperties properties)
  | .array raw start cursor values => .array raw start cursor (tightValues values)

/-- Properties without the blanks in their names. -/
def tightProperties : List (Option Key × Node) → List (Option Key × Node)
  | [] => []
  | (key?, value) :: more => (key?.map Key.tight, value.tight) :: tightProperties more

/-- Values without the blanks in their names. -/
def tightValues : List Node → List Node
  | [] => []
  | value :: more => value.tight :: tightValues more

end

/-- A property without the blanks in its names. -/
def tightProperty (property : Option Key × Node) : Option Key × Node :=
  (property.1.map Key.tight, property.2.tight)

theorem tightProperties_eq_map (properties : List (Option Key × Node)) :
    tightProperties properties = properties.map tightProperty := by
  induction properties with
  | nil => rfl
  | cons property more inductionHypothesis =>
      rw [tightProperties, List.map_cons, inductionHypothesis]
      rfl

theorem tightValues_eq_map (values : List Node) : tightValues values = values.map Node.tight := by
  induction values with
  | nil => rfl
  | cons value more inductionHypothesis =>
      rw [tightValues, List.map_cons, inductionHypothesis]

@[simp]
theorem Node.raw_tight (node : Node) : node.tight.raw = node.raw := by
  cases node <;> rfl

theorem propertyName_tightProperty (property : Option Key × Node) :
    propertyName (tightProperty property) = (propertyName property).withoutBlanks := by
  obtain ⟨_ | key, value⟩ := property <;> rfl

theorem map_tight_of_isTight {key? : Option Key} {value : Node}
    (tight : (propertyName (key?, value)).IsTight) : key?.map Key.tight = key? := by
  cases key? with
  | none => rfl
  | some key =>
      have same : key.name.withoutBlanks = key.name := Text.withoutBlanks_eq_self_iff.mpr tight
      rw [Option.map_some, Key.tight, same]

/-- The caret stands in the name of a key as before. -/
theorem cursor_tightProperty (property : Option Key × Node) :
    (tightProperty property).1.bind Key.cursor = property.1.bind Key.cursor := by
  obtain ⟨_ | key, value⟩ := property <;> rfl

/-! ## The way along the caret -/

/-- The way from a node along the caret to a node below it, by the names of the properties on it. -/
inductive Node.Way : Node → List Text → Node → Prop
  | here (node : Node) : Way node [] node
  | property {raw : Text} {start index : Nat} {properties : List (Option Key × Node)}
      {property : Option Key × Node} {names : List Text} {last : Node}
      (here : properties[index]? = some property) (way : Way property.2 names last) :
      Way (.object raw start (some index) properties) (propertyName property :: names) last
  | value {raw : Text} {start index : Nat} {values : List Node} {value : Node} {names : List Text}
      {last : Node} (here : values[index]? = some value) (way : Way value names last) :
      Way (.array raw start (some index) values) names last

/-- Names of a tree. A property without a key has an empty one. -/
inductive Node.AllNames (holds : Text → Prop) : Node → Prop
  | span {raw : Text} {start : Nat} {cursor : Option Nat} : AllNames holds (.span raw start cursor)
  | object {raw : Text} {start : Nat} {cursor : Option Nat}
      {properties : List (Option Key × Node)}
      (names : ∀ property ∈ properties, holds (propertyName property))
      (values : ∀ property ∈ properties, AllNames holds property.2) :
      AllNames holds (.object raw start cursor properties)
  | array {raw : Text} {start : Nat} {cursor : Option Nat} {values : List Node}
      (elements : ∀ value ∈ values, AllNames holds value) :
      AllNames holds (.array raw start cursor values)

/-- The names of a part of a tree are names of the tree. -/
theorem Node.AllNames.of_part {holds : Text → Prop} {tree node : Node}
    (names : tree.AllNames holds) (part : tree.Part node) : node.AllNames holds := by
  induction part with
  | root => exact names
  | property _ member inductionHypothesis =>
      cases inductionHypothesis with
      | object _ values => exact values _ member
  | value _ member inductionHypothesis =>
      cases inductionHypothesis with
      | array elements => exact elements _ member

/-- No blank is left in the names of a tree. -/
theorem Node.allNames_tight (node : Node) : node.tight.AllNames Text.IsTight := by
  induction node using Node.induction with
  | span raw start cursor => exact .span
  | object raw start cursor properties inductionHypothesis =>
      rw [Node.tight, tightProperties_eq_map]
      refine .object ?_ (List.forall_mem_map.mpr inductionHypothesis)
      rw [List.forall_mem_map]
      intro property _
      rw [propertyName_tightProperty]
      exact Text.isTight_withoutBlanks _
  | array raw start cursor values inductionHypothesis =>
      rw [Node.tight, tightValues_eq_map]
      exact .array (List.forall_mem_map.mpr inductionHypothesis)

/-- Every name is a name of some kind. -/
theorem Node.allNames_true (node : Node) : node.AllNames fun _ => True := by
  induction node using Node.induction with
  | span raw start cursor => exact .span
  | object raw start cursor properties inductionHypothesis =>
      exact .object (fun _ _ => trivial) inductionHypothesis
  | array raw start cursor values inductionHypothesis => exact .array inductionHypothesis

/-! ## Paths grow -/

theorem prefix_joinPath (path name : Text) : path <+: joinPath path name := by
  unfold joinPath
  split
  next empty =>
    rw [List.isEmpty_iff.mp empty]
    exact List.nil_prefix
  next => exact List.prefix_append _ _

theorem path_of_locateElement {array : Node} {cursor : Option Nat} {values : List Node}
    {path : Text} {focus : Focus} (found : locateElement array cursor values path = some focus) :
    focus.path = path := by
  obtain ⟨index, _, rfl⟩ := Option.map_eq_some_iff.mp found
  split <;> rfl

/-- In the value of an operator the walk ends under the same path, or goes on from it. -/
theorem path_of_locateOperatorValue {path : Text} {property : Option Key × Node} {focus : Focus}
    (found : locateOperatorValue path property = some focus) :
    focus.path = path ∨ ∃ stage : Stage, stage.locate path property.2 = some focus := by
  unfold locateOperatorValue at found
  split at found
  · exact .inl (by rw [← Option.some.inj found]; rfl)
  · split at found
    · left
      obtain ⟨key?, value⟩ := property
      cases value with
      | span => contradiction
      | object => contradiction
      | array => exact path_of_locateElement found
    · split at found
      · exact .inr ⟨.operators, found⟩
      · split at found
        · exact .inr ⟨.selector, found⟩
        · contradiction

/-- Among operators the walk ends under the same path, or goes on from it in one of their values. -/
theorem path_of_locateOperators {path raw : Text} {start : Nat} {cursor : Option Nat}
    {properties : List (Option Key × Node)} {focus : Focus}
    (found : locateOperators path (.object raw start cursor properties) = some focus) :
    focus.path = path ∨
      ∃ property ∈ properties, ∃ stage : Stage, stage.locate path property.2 = some focus := by
  rw [locateOperators_object] at found
  split at found
  · exact .inl (by rw [← Option.some.inj found]; rfl)
  · rcases nameAt_or_exists_of_bind found with named | ⟨index, property, _, here, descended⟩
    · exact .inl (of_nameAt named).1
    · rcases path_of_locateOperatorValue descended with same | deeper
      · exact .inl same
      · exact .inr ⟨property, List.mem_of_getElem? here, deeper⟩

/-- What the walk adds to a path are names of the tree. -/
theorem path_of_locate {holds motive : Text → Prop} {node : Node} (names : node.AllNames holds)
    (grows : ∀ {path name}, motive path → holds name → motive (joinPath path name))
    {stage : Stage} {path : Text} {focus : Focus} (base : motive path)
    (found : stage.locate path node = some focus) : motive focus.path := by
  induction names generalizing stage path with
  | @span raw start cursor =>
      cases stage with
      | fieldValue =>
          rw [Stage.locate, locateFieldValue] at found
          rw [← Option.some.inj found]
          exact base
      | selector => simp [Stage.locate, locateSelector] at found
      | operand => simp [Stage.locate, locateOperand] at found
      | operators => simp [Stage.locate, locateOperators] at found
  | @object raw start cursor properties names _ inductionHypothesis =>
      have operators (located : locateOperators path (.object raw start cursor properties) =
          some focus) : motive focus.path := by
        rcases path_of_locateOperators located with same | ⟨property, member, stage, deeper⟩
        · exact same ▸ base
        · exact inductionHypothesis property member base deeper
      cases stage with
      | selector =>
          rcases nameAt_or_exists_of_locateSelector found with
            named | ⟨index, property, _, here, descended⟩
          · exact (of_nameAt named).1 ▸ base
          · have member := List.mem_of_getElem? here
            rw [locateProperty_eq] at descended
            refine inductionHypothesis property member ?_ descended
            unfold propertyPath
            split
            · exact base
            · exact grows base (names property member)
      | operand => simp [Stage.locate, locateOperand] at found
      | fieldValue =>
          rw [Stage.locate, locateFieldValue] at found
          exact operators found
      | operators => exact operators found
  | @array raw start cursor values _ inductionHypothesis =>
      cases stage with
      | selector => simp [Stage.locate, locateSelector] at found
      | operand =>
          rw [Stage.locate, locateOperand_array] at found
          obtain ⟨index, _, found⟩ := Option.bind_eq_some_iff.mp found
          obtain ⟨value, here, deeper⟩ := Option.bind_eq_some_iff.mp found
          exact @inductionHypothesis value (List.mem_of_getElem? here) .selector _ base deeper
      | fieldValue =>
          rw [Stage.locate, locateFieldValue] at found
          exact path_of_locateElement found ▸ base
      | operators => simp [Stage.locate, locateOperators] at found

/-- The walk keeps the path that it comes with. -/
theorem prefix_path_of_locate (node : Node) {stage : Stage} {path : Text} {focus : Focus}
    (found : stage.locate path node = some focus) : path <+: focus.path :=
  path_of_locate node.allNames_true (fun begins _ => begins.trans (prefix_joinPath _ _))
    (List.prefix_refl path) found

theorem isTight_joinPath {path name : Text} (outer : path.IsTight) (inner : name.IsTight) :
    (joinPath path name).IsTight := by
  unfold joinPath
  split
  · exact inner
  · intro c member
    rcases List.mem_append.mp member with front | back
    · exact outer c front
    · rcases List.mem_cons.mp back with rfl | last
      · rfl
      · exact inner c last

/-- Without blanks in names there are none in paths. -/
theorem isTight_path_of_locate_tight {node : Node} {focus : Focus}
    (found : node.tight.locate = some focus) : focus.path.IsTight :=
  @path_of_locate _ _ _ node.allNames_tight isTight_joinPath
    .selector [] _ nofun found

/-! ## Two walks -/

/-- A walk in a tree, and one in the tree without blanks in names. Where the second comes to a
value, the first comes to it under the same path if there are no blanks in the names on the way;
and if there are, then whatever the first comes to has a path with blanks. -/
def Follows (node : Node) (found? meant? : Option Focus) : Prop :=
  ∀ focus, meant? = some focus → ¬focus.sought.IsName →
    ∃ names last, node.Way names last ∧ focus.context = last.tight ∧
      ((∀ name ∈ names, name.IsTight) → found? = some { focus with context := last }) ∧
      ((∃ name ∈ names, ¬name.IsTight) → ∀ other, found? = some other → ¬other.path.IsTight)

theorem follows_none (node : Node) (found? : Option Focus) : Follows node found? none :=
  fun _ found => nomatch found

theorem follows_atValue (node : Node) (path : Text) (choices : Choices) :
    Follows node (some (.atValue node path choices)) (some (.atValue node.tight path choices)) := by
  rintro focus found -
  rw [← Option.some.inj found]
  refine ⟨[], node, .here node, rfl, fun _ => ?_, fun untight => ?_⟩
  · simp [Focus.atValue]
  · obtain ⟨name, member, _⟩ := untight
    exact absurd member List.not_mem_nil

/-- One more value on the way has no name. -/
theorem Follows.value {raw : Text} {start index : Nat} {values : List Node} {value : Node}
    {found? meant? : Option Focus} (follows : Follows value found? meant?)
    (here : values[index]? = some value) :
    Follows (.array raw start (some index) values) found? meant? := by
  intro focus found isValue
  obtain ⟨names, last, way, context, same, apart⟩ := follows focus found isValue
  exact ⟨names, last, .value here way, context, same, apart⟩

section

variable {raw path : Text} {start : Nat} {cursor : Option Nat}

theorem follows_locateElement (values : List Node) (path : Text) :
    Follows (.array raw start cursor values)
      (locateElement (.array raw start cursor values) cursor values path)
      (locateElement (Node.array raw start cursor values).tight cursor (tightValues values)
        path) := by
  cases cursor with
  | none => exact follows_none _ _
  | some index =>
      rw [locateElement, locateElement, Option.map_some, Option.map_some, tightValues_eq_map,
        List.getElem?_map]
      cases here : values[index]? with
      | some element => exact (follows_atValue element path .sampled).value here
      | none =>
          rintro focus found -
          rw [← Option.some.inj found]
          refine ⟨[], _, .here _, rfl, fun _ => rfl, fun untight => ?_⟩
          obtain ⟨name, member, _⟩ := untight
          exact absurd member List.not_mem_nil

/-- A value in an object is that of the property at the caret, which is not in the key. -/
theorem exists_of_bind_of_value {object : Node} {properties : List (Option Key × Node)}
    {vocabulary : Vocabulary} {descend : Option Key × Node → Option Focus} {focus : Focus}
    (found : (cursor.bind fun index =>
      (locateName object properties index vocabulary path).or
        (properties[index]?.bind descend)) = some focus)
    (isValue : ¬focus.sought.IsName) :
    ∃ index property, cursor = some index ∧ properties[index]? = some property ∧
      property.1.bind Key.cursor = none ∧ descend property = some focus := by
  obtain ⟨index, rfl, either⟩ := Option.bind_eq_some_iff.mp found
  rcases Option.or_eq_some_iff.mp either with named | ⟨nameless, deeper⟩
  · refine absurd ?_ isValue
    rcases (of_locateName named).2 with ⟨_, _, sought⟩ | ⟨_, _, _, _, _, _, sought⟩
    · rw [sought]
      exact trivial
    · rw [sought]
      exact trivial
  · obtain ⟨property, here, descended⟩ := Option.bind_eq_some_iff.mp deeper
    exact ⟨index, property, rfl, here, outside_of_locateName_eq_none nameless here, descended⟩

theorem bind_of_outside {object : Node} {properties : List (Option Key × Node)} {index : Nat}
    {vocabulary : Vocabulary} {descend : Option Key × Node → Option Focus}
    {property : Option Key × Node} (here : properties[index]? = some property)
    (outside : property.1.bind Key.cursor = none) :
    ((locateName object properties index vocabulary path).or (properties[index]?.bind descend)) =
      descend property := by
  obtain ⟨key?, value⟩ := property
  have nameless : locateName object properties index vocabulary path = none := by
    simp only [locateName, here]
    cases key? with
    | none => rfl
    | some key =>
        have absent : key.cursor = none := outside
        rw [Option.bind_some, absent, Option.map_none]
  rw [nameless, Option.none_or, here, Option.bind_some]

/-- The walks go from an object into the value of the property at the caret. -/
theorem follows_object {object other : Node} {properties : List (Option Key × Node)}
    {vocabulary : Vocabulary} {descend : Option Key × Node → Option Focus}
    (follows : ∀ property ∈ properties, ∀ key?,
      Follows property.2 (descend (key?, property.2)) (descend (key?, property.2.tight)))
    (deviates : ∀ property ∈ properties, ¬(propertyName property).IsTight →
      ∀ focus, descend property = some focus → ¬focus.path.IsTight) :
    Follows (.object raw start cursor properties)
      (cursor.bind fun index =>
        (locateName object properties index vocabulary path).or (properties[index]?.bind descend))
      (cursor.bind fun index =>
        (locateName other (tightProperties properties) index vocabulary path).or
          ((tightProperties properties)[index]?.bind descend)) := by
  intro focus found isValue
  obtain ⟨index, property, rfl, here, outside, descended⟩ := exists_of_bind_of_value found isValue
  rw [tightProperties_eq_map, List.getElem?_map, Option.map_eq_some_iff] at here
  obtain ⟨property, here, rfl⟩ := here
  rw [cursor_tightProperty] at outside
  have member := List.mem_of_getElem? here
  obtain ⟨names, last, way, context, same, apart⟩ :=
    follows property member _ focus descended isValue
  rw [Option.bind_some, bind_of_outside here outside]
  refine ⟨_, last, .property here way, context, ?_, ?_⟩
  · intro tight
    obtain ⟨first, others⟩ := List.forall_mem_cons.mp tight
    rw [map_tight_of_isTight first] at same
    exact same others
  · intro untight
    by_cases first : (propertyName property).IsTight
    · rw [map_tight_of_isTight first] at apart
      refine apart ?_
      obtain ⟨name, among, spaced⟩ := untight
      rcases List.mem_cons.mp among with rfl | later
      · exact absurd first spaced
      · exact ⟨name, later, spaced⟩
    · exact deviates property member first

end

/-! ## Names with blanks -/

theorem not_mem_of_not_isTight {name : Text} {names : List Text} (spaced : ¬name.IsTight)
    (tight : ∀ other ∈ names, other.IsTight) : name ∉ names :=
  fun member => spaced (tight name member)

/-- A name with a blank is no logical operator, and goes into the path. -/
theorem not_isTight_of_locateProperty {path : Text} {property : Option Key × Node}
    (spaced : ¬(propertyName property).IsTight) {focus : Focus}
    (found : locateProperty path property = some focus) : ¬focus.path.IsTight := by
  have field : propertyName property ∉ logicalOperators :=
    not_mem_of_not_isTight spaced (by decide)
  rw [locateProperty_eq] at found
  have begins := prefix_path_of_locate property.2 found
  rw [propertyPath, if_neg field] at begins
  intro tight
  refine spaced fun c member => tight c (begins.subset ?_)
  unfold joinPath
  split
  · exact member
  · exact List.mem_append_right _ (List.mem_cons_of_mem _ member)

/-- A name with a blank is no operator with a value. -/
theorem locateOperatorValue_of_not_isTight {path : Text} {property : Option Key × Node}
    (spaced : ¬(propertyName property).IsTight) : locateOperatorValue path property = none := by
  have apart {name : Text} (tight : name.IsTight) : propertyName property ≠ name := by
    rintro same
    exact spaced (same ▸ tight)
  have choiceless (typed : Text) : operatorChoices? (propertyName property) typed = none := by
    have noComparison : propertyName property ∉ comparisonOperators :=
      not_mem_of_not_isTight spaced (by decide)
    simp only [operatorChoices?, noComparison, if_false,
      @apart "$exists".toList (by decide), @apart "$type".toList (by decide),
      @apart "$mod".toList (by decide), @apart "$size".toList (by decide)]
  have noArray : propertyName property ∉ arrayOperators :=
    not_mem_of_not_isTight spaced (by decide)
  simp only [locateOperatorValue, choiceless, noArray, if_false,
    @apart "$not".toList (by decide), @apart "$elemMatch".toList (by decide)]

/-! ## Whole walks -/

/-- A name does not begin with a blank. -/
def BeginsTight (name : Text) : Prop :=
  name.withoutBlanks.head? = name.head?

theorem follows_locateOperatorValue {value : Node}
    (follows : ∀ (stage : Stage) (path : Text),
      Follows value (stage.locate path value) (stage.locate path value.tight))
    (path : Text) (key? : Option Key) :
    Follows value (locateOperatorValue path (key?, value))
      (locateOperatorValue path (key?, value.tight)) := by
  unfold locateOperatorValue
  simp only [Node.raw_tight, show propertyName (key?, value.tight) = propertyName (key?, value)
    from rfl]
  split
  · exact follows_atValue value path _
  · split
    · cases value with
      | span => exact follows_none _ _
      | object => exact follows_none _ _
      | array raw start cursor values => exact follows_locateElement values path
    · split
      · exact follows .operators path
      · split
        · exact follows .selector path
        · exact follows_none _ _

theorem any_head?_tightProperties {properties : List (Option Key × Node)}
    (names : ∀ property ∈ properties, BeginsTight (propertyName property)) :
    ((tightProperties properties).map propertyName).any (fun name => name.head? ≠ some '$') =
      (properties.map propertyName).any fun name => name.head? ≠ some '$' := by
  rw [tightProperties_eq_map, List.map_map, Bool.eq_iff_iff]
  simp only [List.any_map, List.any_eq_true, Function.comp_apply, propertyName_tightProperty]
  exact exists_congr fun property => and_congr_right fun member => by
    rw [names property member]

theorem follows_locateOperators {raw : Text} {start : Nat} {cursor : Option Nat}
    {properties : List (Option Key × Node)}
    (names : ∀ property ∈ properties, BeginsTight (propertyName property))
    (follows : ∀ property ∈ properties, ∀ (stage : Stage) (path : Text),
      Follows property.2 (stage.locate path property.2) (stage.locate path property.2.tight))
    (path : Text) :
    Follows (.object raw start cursor properties)
      (locateOperators path (.object raw start cursor properties))
      (locateOperators path (Node.object raw start cursor properties).tight) := by
  rw [locateOperators_object, Node.tight, locateOperators_object, any_head?_tightProperties names]
  split
  · exact follows_atValue (.object raw start cursor properties) path .sampled
  · exact follows_object
      (fun property member => follows_locateOperatorValue (follows property member) path)
      fun property _ spaced focus found => by
        rw [locateOperatorValue_of_not_isTight spaced] at found
        contradiction

/-- The two walks from a node whose names begin with no blanks. -/
theorem follows_locate {node : Node} (names : node.AllNames BeginsTight) (stage : Stage)
    (path : Text) : Follows node (stage.locate path node) (stage.locate path node.tight) := by
  induction names generalizing stage path with
  | @span raw start cursor =>
      cases stage with
      | selector => simpa [Stage.locate, Node.tight, locateSelector] using follows_none _ _
      | operand => simpa [Stage.locate, Node.tight, locateOperand] using follows_none _ _
      | operators => simpa [Stage.locate, Node.tight, locateOperators] using follows_none _ _
      | fieldValue =>
          rw [Stage.locate, Node.tight, locateFieldValue]
          exact follows_atValue (.span raw start cursor) path .sampled
  | @object raw start cursor properties names _ inductionHypothesis =>
      have operators := @follows_locateOperators raw start cursor properties names
        inductionHypothesis path
      cases stage with
      | selector =>
          rw [Stage.locate, Node.tight, locateSelector_object, locateSelector_object]
          refine follows_object (fun property member key? => ?_)
            fun property _ spaced focus => not_isTight_of_locateProperty spaced
          rw [locateProperty_eq, locateProperty_eq]
          exact inductionHypothesis property member _ _
      | operand => simpa [Stage.locate, Node.tight, locateOperand] using follows_none _ _
      | fieldValue =>
          rw [Stage.locate, Node.tight, locateFieldValue, locateFieldValue]
          exact operators
      | operators => exact operators
  | @array raw start cursor values _ inductionHypothesis =>
      cases stage with
      | selector => simpa [Stage.locate, Node.tight, locateSelector] using follows_none _ _
      | operand =>
          rw [Stage.locate, Node.tight, locateOperand_array, locateOperand_array]
          cases cursor with
          | none => exact follows_none _ _
          | some index =>
              rw [Option.bind_some, Option.bind_some, tightValues_eq_map, List.getElem?_map]
              cases here : values[index]? with
              | none => exact follows_none _ _
              | some value =>
                  exact (inductionHypothesis value (List.mem_of_getElem? here) .selector path).value
                    here
      | fieldValue =>
          rw [Stage.locate, Node.tight, locateFieldValue, locateFieldValue]
          exact follows_locateElement values path
      | operators => simpa [Stage.locate, Node.tight, locateOperators] using follows_none _ _

/-! ## Trees that are written -/

section

variable {holds : Text → Prop} {written : Written}

theorem mem_headedNodes {rest? : Option Text} {start : Nat} {caret : Caret}
    {properties : List (Heading × Written)} {property : Option Key × Node}
    (member : property ∈ (headedNodes rest? start caret properties).1) :
    ∃ heading value start caret comma, (heading, value) ∈ properties ∧
      propertyName property = heading.name ∧ property.2 = value.node start caret comma := by
  induction properties generalizing start caret with
  | nil => contradiction
  | cons first more inductionHypothesis =>
      obtain ⟨heading, value⟩ := first
      rw [headedNodes] at member
      rcases List.mem_cons.mp member with rfl | later
      · exact ⟨heading, value, _, _, _, List.mem_cons_self, rfl, rfl⟩
      · obtain ⟨other, inner, start, caret, comma, among, same⟩ := inductionHypothesis later
        exact ⟨other, inner, start, caret, comma, List.mem_cons_of_mem _ among, same⟩

theorem mem_writtenNodes {rest? : Option Text} {start : Nat} {caret : Caret}
    {values : List Written} {node : Node}
    (member : node ∈ (writtenNodes rest? start caret values).1) :
    ∃ value start caret comma, value ∈ values ∧ node = value.node start caret comma := by
  induction values generalizing start caret with
  | nil => contradiction
  | cons value more inductionHypothesis =>
      rw [writtenNodes] at member
      rcases List.mem_cons.mp member with rfl | later
      · exact ⟨value, _, _, _, List.mem_cons_self, rfl⟩
      · obtain ⟨inner, start, caret, comma, among, same⟩ := inductionHypothesis later
        exact ⟨inner, start, caret, comma, List.mem_cons_of_mem _ among, same⟩

/-- The names of the node are those of the written tree. -/
theorem Written.AllKeys.allNames_node (keys : written.AllKeys fun heading => holds heading.name)
    (start : Nat) (caret : Caret) (comma : Bool) :
    (written.node start caret comma).AllNames holds := by
  induction keys generalizing start caret comma with
  | atom => exact .span
  | object keys _ inductionHypothesis =>
      refine .object (fun property member => ?_) fun property member => ?_
      · obtain ⟨heading, value, _, _, _, among, name, _⟩ := mem_headedNodes member
        exact name ▸ keys _ among
      · obtain ⟨heading, value, start, caret, comma, among, _, same⟩ := mem_headedNodes member
        exact same ▸ inductionHypothesis _ among start caret comma
  | array _ inductionHypothesis =>
      refine .array fun node member => ?_
      obtain ⟨value, start, caret, comma, among, rfl⟩ := mem_writtenNodes member
      exact inductionHypothesis value among start caret comma

end

/-- Without its blanks the name of an identifier is the identifier. -/
theorem Heading.IsIdentifier.withoutBlanks_name {heading : Heading}
    (identifier : heading.IsIdentifier) (wellFormed : heading.WellFormed) :
    heading.name.withoutBlanks = heading.tight.name := by
  have name : heading.tight.name.withoutBlanks = heading.tight.name :=
    Text.withoutBlanks_eq_self_iff.mpr fun c member =>
      Acceptance.not_isBlank_of_isNamePart (identifier.isNamePart_of_mem member)
  have gap : heading.gap.withoutBlanks = [] := by
    simpa [Text.withoutBlanks] using Text.forall_isBlank wellFormed.gap
  calc heading.name.withoutBlanks
      = (heading.tight.name ++ heading.gap).withoutBlanks := by rw [identifier.name_eq]
    _ = heading.tight.name.withoutBlanks ++ heading.gap.withoutBlanks := List.filter_append ..
    _ = heading.tight.name := by rw [name, gap, List.append_nil]

theorem Heading.IsIdentifier.withoutBlanks_name_ne_nil {heading : Heading}
    (identifier : heading.IsIdentifier) (wellFormed : heading.WellFormed) :
    heading.name.withoutBlanks ≠ [] := by
  rw [identifier.withoutBlanks_name wellFormed]
  exact identifier.name_tight_ne_nil

theorem Heading.IsIdentifier.beginsTight {heading : Heading} (identifier : heading.IsIdentifier)
    (wellFormed : heading.WellFormed) : BeginsTight heading.name := by
  obtain ⟨c, rest, name⟩ := List.exists_cons_of_ne_nil identifier.name_tight_ne_nil
  rw [BeginsTight, identifier.withoutBlanks_name wellFormed, identifier.name_eq, name]
  rfl

section

variable {written : Written}

theorem propertyOutlines_tight_headedNodes {rest? : Option Text}
    {properties : List (Heading × Written)}
    (names : ∀ property ∈ properties, property.1.name.withoutBlanks = property.1.tight.name)
    (outlines : ∀ property ∈ properties, ∀ start caret comma,
      (property.2.node start caret comma).tight.outline =
        (property.2.respell Heading.tight).outline)
    (start : Nat) (caret : Caret) :
    propertyOutlines (tightProperties (headedNodes rest? start caret properties).1) =
      headedOutlines (respellProperties Heading.tight properties) := by
  induction properties generalizing start caret with
  | nil => rfl
  | cons property more inductionHypothesis =>
      obtain ⟨heading, value⟩ := property
      obtain ⟨name, otherNames⟩ := List.forall_mem_cons.mp names
      obtain ⟨here, otherOutlines⟩ := List.forall_mem_cons.mp outlines
      rw [headedNodes, tightProperties, propertyOutlines, respellProperties, headedOutlines,
        inductionHypothesis otherNames otherOutlines, here, ← name]
      rfl

theorem valueOutlines_tight_writtenNodes {rest? : Option Text} {values : List Written}
    (outlines : ∀ value ∈ values, ∀ start caret comma,
      (value.node start caret comma).tight.outline = (value.respell Heading.tight).outline)
    (start : Nat) (caret : Caret) :
    valueOutlines (tightValues (writtenNodes rest? start caret values).1) =
      writtenOutlines (respellValues Heading.tight values) := by
  induction values generalizing start caret with
  | nil => rfl
  | cons value more inductionHypothesis =>
      obtain ⟨here, others⟩ := List.forall_mem_cons.mp outlines
      rw [writtenNodes, tightValues, valueOutlines, respellValues, writtenOutlines,
        inductionHypothesis others, here]

/-- Without the blanks in its names the node shows the identifiers. -/
theorem Written.WellFormed.outline_tight_node (wellFormed : written.WellFormed)
    (names : written.AllKeys fun heading => heading.name.withoutBlanks = heading.tight.name)
    (start : Nat) (caret : Caret) (comma : Bool) :
    (written.node start caret comma).tight.outline = (written.respell Heading.tight).outline := by
  induction wellFormed generalizing start caret comma with
  | atom blankBefore blankAfter form =>
      exact (WellFormed.atom blankBefore blankAfter form).outline_node start caret comma
  | object _ _ _ _ _ inductionHypothesis =>
      cases names with
      | object names values =>
          rw [Written.node, Node.tight, Node.outline, Written.respell, Written.outline,
            propertyOutlines_tight_headedNodes names fun property member =>
              inductionHypothesis property member (values property member)]
  | array _ _ _ _ _ inductionHypothesis =>
      cases names with
      | array values =>
          rw [Written.node, Node.tight, Node.outline, Written.respell, Written.outline,
            valueOutlines_tight_writtenNodes fun value member =>
              inductionHypothesis value member (values value member)]

end

end Selector

end Typeahead
