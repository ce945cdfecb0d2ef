import Typeahead.Proofs.Selector.Typed

/-!
# Sites of names

If the walk finds a name in a written tree, then the tree is a context around an object in which the
name is found. Whatever object fills this context, the walk comes to it with the same path, if the
caret stands in it.
-/

namespace Typeahead.Selector

/-! ## Sites -/

/-- An object in a context, with the caret at a position in the text of the object. -/
structure Site where
  layers : List Layer
  before : Text
  properties : List (Heading × Written)
  rest? : Option Text
  after : Text
  position : Nat

namespace Site

variable (site : Site)

/-- The object in the context. -/
def object : Written :=
  .object site.before site.properties site.rest? site.after

/-- The whole tree. -/
def written : Written :=
  filled site.layers site.object

/-- The caret in the text of the whole tree. -/
def caret : Nat :=
  (ahead site.layers).length + site.position

/-- The node of the object, if the tree is read at a place. -/
def node (start : Nat) (comma : Bool) : Node :=
  site.object.node (start + (ahead site.layers).length) (some (site.position : Int)) comma

/-- The same object in another context. -/
def within (layers : List Layer) : Site :=
  { site with layers }

/-- The same object with one more layer around it. -/
def under (layer : Layer) : Site :=
  site.within (layer :: site.layers)

/-- The walk from a stage and a path comes to a name of the object. -/
structure Finds (stage : Stage) (path : Text) (vocabulary : Vocabulary) (start : Nat)
    (comma : Bool) (focus : Focus) : Prop where
  leads : Leads stage path site.layers vocabulary focus.path
  inside : site.position ≤ site.object.text.length
  dollared : vocabulary = .operators → Dollared (writtenNames site.properties)
  named : (site.node start comma).nameAt vocabulary focus.path = some focus

variable {site} {layer : Layer} {start : Nat}

theorem written_under : (site.under layer).written = layer.plug site.written :=
  rfl

theorem caret_under : (site.under layer).caret = layer.leading.length + site.caret := by
  simp only [caret, under, within, ahead, List.length_append, Nat.add_assoc]

theorem node_under (comma : Bool) :
    (site.under layer).node start comma = site.node (start + layer.leading.length) comma := by
  simp only [node, under, within, ahead, object, List.length_append, Nat.add_assoc]

theorem within_cons (layers : List Layer) :
    site.within (layer :: layers) = (site.within layers).under layer :=
  rfl

theorem node_within_nil (site : Site) (comma : Bool) :
    (site.within []).node start comma =
      (site.within []).written.node start (some ((site.within []).caret : Int)) comma := by
  simp [caret, written, node, within, filled, ahead, object]

theorem names_node (comma : Bool) :
    (site.node start comma).names = writtenNames site.properties :=
  map_propertyName_headedNodes _

/-- Behind one more layer the walk finds the same. -/
theorem Finds.under {stage outer : Stage} {path outerPath : Text} {vocabulary : Vocabulary}
    {comma : Bool} {focus : Focus}
    (finds : site.Finds stage path vocabulary (start + layer.leading.length) comma focus)
    (leads : Leads outer outerPath (layer :: site.layers) vocabulary focus.path) :
    (site.under layer).Finds outer outerPath vocabulary start comma focus where
  leads := leads
  inside := finds.inside
  dollared := finds.dollared
  named := by
    rw [node_under]
    exact finds.named

end Site

/-! ## From the tree to a site -/

theorem Site.not_isBlank_object (site : Site) : site.object.text.isBlank = false := by
  refine @Text.not_isBlank_of_mem _ '{' ?_ rfl
  rw [object, Written.text]
  simp

theorem Site.not_isBlank_written (site : Site) : site.written.text.isBlank = false :=
  not_isBlank_filled site.not_isBlank_object

/-- The walk comes to a name at a site of a tree. -/
def Written.HasSite (written : Written) (stage : Stage) (path : Text) (start : Nat)
    (caret : Caret) (focus : Focus) : Prop :=
  ∃ site vocabulary comma, written = Site.written site ∧ caret = some (site.caret : Int) ∧
    site.Finds stage path vocabulary start comma focus

/-- Each name that the walk finds in a tree is found at a site of the tree. -/
def Written.HasSites (written : Written) : Prop :=
  ∀ {stage : Stage} {path : Text} {start : Nat} {caret : Caret} {comma : Bool} {focus : Focus},
    stage.locate path (written.node start caret comma) = some focus → focus.sought.IsName →
      written.HasSite stage path start caret focus

section

variable {before after : Text} {earlier later : List (Heading × Written)} {heading : Heading}
  {value : Written} {rest? : Option Text} {start position : Nat} {stage outer : Stage}
  {path outerPath : Text} {focus : Focus}

/-- What is found in the value of a property is found at a site of the object. -/
theorem hasSite_of_property (sites : value.HasSites)
    (headed : Headed (earlier ++ (heading, value) :: later) rest?)
    (leads : ∀ {layers vocabulary}, Leads stage path layers vocabulary focus.path →
      Leads outer outerPath (.property before earlier heading later rest? after :: layers)
        vocabulary focus.path)
    (found : stage.locate path (propertyNode rest?
      (start + (before.length + 1) + propertyOffset earlier) position heading value later).2 =
        some focus)
    (isName : focus.sought.IsName) :
    (Written.object before (earlier ++ (heading, value) :: later) rest? after).HasSite outer
      outerPath start
      (some ((before.length + 1 + (propertyOffset earlier + position) : Nat) : Int)) focus := by
  obtain ⟨site, vocabulary, comma, rfl, caret, finds⟩ := sites found isName
  have consumed := Heading.consumed_of_colon (headed.colon_of_visible site.not_isBlank_written)
  have same := ((Caret.into_eq_some_iff _ _ _ _).mp caret).1
  rw [Option.some.injEq] at same
  have leading := @Layer.length_leading_property rest? earlier later heading before after
  have place : start + (before.length + 1) + propertyOffset earlier + heading.consumed =
      start + (Layer.property before earlier heading later rest? after).leading.length := by
    omega
  rw [place] at finds
  refine ⟨site.under (.property before earlier heading later rest? after), vocabulary, comma, rfl,
    ?_, finds.under (leads finds.leads)⟩
  rw [Site.caret_under, Option.some.injEq]
  omega

/-- What is found in a value of an array is found at a site of the array. -/
theorem hasSite_of_value {earlier later : List Written} (sites : value.HasSites)
    (leads : ∀ {layers vocabulary}, Leads stage path layers vocabulary focus.path →
      Leads outer outerPath (.value before earlier later rest? after :: layers) vocabulary
        focus.path)
    {comma : Bool}
    (found : stage.locate path (value.node (start + (before.length + 1) + valueOffset earlier)
      (some (position : Int)) comma) = some focus)
    (isName : focus.sought.IsName) :
    (Written.array before (earlier ++ value :: later) rest? after).HasSite outer outerPath start
      (some ((before.length + 1 + (valueOffset earlier + position) : Nat) : Int)) focus := by
  obtain ⟨site, vocabulary, comma, rfl, caret, finds⟩ := sites found isName
  rw [Option.some.injEq] at caret
  have leading := @Layer.length_leading_value rest? before after earlier later
  have place : start + (before.length + 1) + valueOffset earlier =
      start + (Layer.value before earlier later rest? after).leading.length := by
    omega
  rw [place] at finds
  refine ⟨site.under (.value before earlier later rest? after), vocabulary, comma, rfl, ?_,
    finds.under (leads finds.leads)⟩
  rw [Site.caret_under, Option.some.injEq]
  omega

end

theorem hasSites_atom (before text after : Text) : (Written.atom before text after).HasSites := by
  intro stage path start caret comma focus found isName
  rw [Written.node] at found
  cases stage with
  | selector => simp [Stage.locate, locateSelector] at found
  | operand => simp [Stage.locate, locateOperand] at found
  | fieldValue =>
      rw [Stage.locate, locateFieldValue] at found
      rw [← Option.some.inj found] at isName
      contradiction
  | operators => simp [Stage.locate, locateOperators] at found

section

variable {before after : Text} {properties : List (Heading × Written)} {rest? : Option Text}
  {path : Text} {start : Nat} {caret : Caret} {comma : Bool} {focus : Focus}

/-- A name of an object is found at the object. -/
theorem hasSite_of_nameAt {stage : Stage} {vocabulary : Vocabulary}
    (leads : Leads stage path [] vocabulary path)
    (dollared : vocabulary = .operators → Dollared (writtenNames properties))
    (named : ((Written.object before properties rest? after).node start caret comma).nameAt
      vocabulary path = some focus) :
    (Written.object before properties rest? after).HasSite stage path start caret focus := by
  obtain rfl := (of_nameAt named).1
  rcases Option.bind_eq_some_iff.mp named with ⟨index, here, _⟩
  obtain ⟨offset, _, rfl, inside⟩ := exists_bodyCaret_of_isSome <| by
    rw [← @isSome_headedNodes rest? (start + (before.length + 1)) _ properties, here]
    rfl
  refine ⟨⟨[], before, properties, rest?, after, before.length + 1 + offset⟩, vocabulary, comma,
    rfl, ?_, ?_⟩
  · rw [Site.caret, ahead, List.length_nil, Nat.zero_add]
  · refine ⟨leads, ?_, dollared, named⟩
    simp only [Site.object, Written.text, List.length_append, List.length_cons]
    omega

/-- What is found below an object is found at a site of the object. -/
theorem hasSite_below (sites : ∀ property ∈ properties, property.2.HasSites)
    (headed : Headed properties rest?) {outer : Stage}
    {descend : Option Key × Node → Option Focus}
    (descends : ∀ property, descend property = some focus → ∃ stage inner,
      stage.locate inner property.2 = some focus ∧
        ∀ earlier heading value later, properties = earlier ++ (heading, value) :: later →
          heading.name = propertyName property → ∀ {layers vocabulary},
            Leads stage inner layers vocabulary focus.path →
              Leads outer path (.property before earlier heading later rest? after :: layers)
                vocabulary focus.path)
    (isName : focus.sought.IsName) {index : Nat} {property : Option Key × Node}
    (here : (headedNodes rest? (start + (before.length + 1))
      (bodyCaret caret before (joined (propertyTexts properties) rest?)) properties).2 = some index)
    (within : (headedNodes rest? (start + (before.length + 1))
      (bodyCaret caret before (joined (propertyTexts properties) rest?)) properties).1[index]? =
        some property)
    (found : descend property = some focus) :
    (Written.object before properties rest? after).HasSite outer path start caret focus := by
  obtain ⟨stage, inner, deeper, leads⟩ := descends property found
  obtain ⟨earlier, heading, value, later, position, rfl, rfl, _, rfl⟩ :=
    exists_propertyNode_of_node headed here within
  exact hasSite_of_property (sites (heading, value) (by simp)) headed
    (leads earlier heading value later rfl rfl) deeper isName

theorem hasSite_of_locateSelector (sites : ∀ property ∈ properties, property.2.HasSites)
    (headed : Headed properties rest?)
    (found : locateSelector path ((Written.object before properties rest? after).node start caret
      comma) = some focus)
    (isName : focus.sought.IsName) :
    (Written.object before properties rest? after).HasSite .selector path start caret focus := by
  rcases nameAt_or_exists_of_locateSelector found with
    named | ⟨index, property, here, within, deeper⟩
  · exact hasSite_of_nameAt .fields (fun other => nomatch other) named
  · refine hasSite_below sites headed (fun property found => ?_) isName here within deeper
    rw [locateProperty_eq] at found
    refine ⟨_, _, found, ?_⟩
    rintro earlier heading value later _ name layers vocabulary leads
    rw [← name] at leads
    exact .property leads

theorem hasSite_of_locateOperators (sites : ∀ property ∈ properties, property.2.HasSites)
    (headed : Headed properties rest?)
    (found : locateOperators path ((Written.object before properties rest? after).node start caret
      comma) = some focus)
    (isName : focus.sought.IsName) :
    (Written.object before properties rest? after).HasSite .operators path start caret focus := by
  obtain ⟨dollared, either⟩ := nameAt_or_exists_of_locateOperators found isName
  rw [map_propertyName_headedNodes] at dollared
  rcases either with named | ⟨index, property, here, within, deeper⟩
  · exact hasSite_of_nameAt .operators (fun _ => dollared) named
  · refine hasSite_below sites headed (fun property found => ?_) isName here within deeper
    obtain ⟨stage, known, deeper⟩ := exists_stage_of_locateOperatorValue found isName
    refine ⟨stage, path, deeper, ?_⟩
    rintro earlier heading value later rfl name layers vocabulary leads
    rw [← name] at known
    refine .operator ?_ known leads
    simpa [Layer.names, writtenNames] using dollared

theorem hasSites_object (sites : ∀ property ∈ properties, property.2.HasSites)
    (headed : Headed properties rest?) :
    (Written.object before properties rest? after).HasSites := by
  intro stage path start caret comma focus found isName
  cases stage with
  | selector => exact hasSite_of_locateSelector sites headed found isName
  | operand => simp [Stage.locate, Written.node, locateOperand] at found
  | fieldValue =>
      rw [Stage.locate, Written.node, locateFieldValue] at found
      obtain ⟨site, vocabulary, comma, same, caret, finds⟩ :=
        hasSite_of_locateOperators sites headed found isName
      exact ⟨site, vocabulary, comma, same, caret,
        ⟨.fieldValue finds.leads, finds.inside, finds.dollared, finds.named⟩⟩
  | operators => exact hasSite_of_locateOperators sites headed found isName

end

theorem hasSites_array {before after : Text} {values : List Written} {rest? : Option Text}
    (sites : ∀ value ∈ values, value.HasSites) :
    (Written.array before values rest? after).HasSites := by
  intro stage path start caret comma focus found isName
  cases stage with
  | selector => simp [Stage.locate, Written.node, locateSelector] at found
  | operand =>
      rw [Stage.locate, Written.node, locateOperand_array] at found
      rcases Option.bind_eq_some_iff.mp found with ⟨index, here, found⟩
      rcases Option.bind_eq_some_iff.mp found with ⟨node, within, deeper⟩
      obtain ⟨earlier, value, later, position, rfl, rfl, comma, rfl⟩ :=
        exists_writtenNode_of_node here within
      exact @hasSite_of_value _ _ _ _ _ _ .selector .operand _ _ _ _ _ (sites value (by simp))
        (fun leads => .operand leads) _ deeper isName
  | fieldValue =>
      rw [Stage.locate, Written.node, locateFieldValue] at found
      exact absurd isName (@not_isName_of_locateArrayValue path (.array _ _ _ _) focus found)
  | operators => simp [Stage.locate, Written.node, locateOperators] at found

/-- What the walk finds in a well-formed tree is found at a site of the tree. -/
theorem Written.WellFormed.hasSites {written : Written} (wellFormed : written.WellFormed) :
    written.HasSites := by
  induction wellFormed with
  | atom => exact hasSites_atom _ _ _
  | object _ _ _ headed _ induct => exact hasSites_object induct headed
  | array _ _ _ _ _ induct => exact hasSites_array induct

/-! ## From a site to the tree -/

theorem Site.caret_le {site : Site} (inside : site.position ≤ site.object.text.length) :
    site.caret ≤ site.written.text.length := by
  rw [caret, written, text_filled]
  simp only [List.length_append]
  omega

section

variable {site : Site} {before after path : Text} {earlier later : List (Heading × Written)}
  {heading : Heading} {rest? : Option Text}

/-- In a selector the walk goes through a layer as the name of its property tells. -/
theorem locateSelector_under
    (wellFormed : (Layer.property before earlier heading later rest? after).WellFormed)
    (inside : site.caret ≤ site.written.text.length) (start : Nat) (comma : Bool) :
    locateSelector path
        ((site.under (.property before earlier heading later rest? after)).written.node start
          (some ((site.under (.property before earlier heading later rest? after)).caret : Int))
          comma) =
      (propertyStage heading.name).locate (propertyPath path heading.name)
        (site.written.node
          (start + (Layer.property before earlier heading later rest? after).leading.length)
          (some (site.caret : Int))
          (Layer.property before earlier heading later rest? after).more?.isSome) := by
  obtain ⟨raw, properties, key, node, _, property, behindKey, name⟩ :=
    wellFormed.exists_node_plug_property inside start comma
  rw [Site.written_under, Site.caret_under, node, locateSelector_object, Option.bind_some,
    locateName_of_no_cursor property behindKey, Option.none_or, property, Option.bind_some,
    locateProperty_eq, propertyName, Option.elim_some, name]

/-- In an object of operators the walk goes through a layer if its operator has names in it. -/
theorem locateOperators_under
    (wellFormed : (Layer.property before earlier heading later rest? after).WellFormed)
    (dollared : Dollared (Layer.property before earlier heading later rest? after).names)
    {stage : Stage} (known : operatorStage? heading.name = some stage)
    (inside : site.caret ≤ site.written.text.length) (start : Nat) (comma : Bool) :
    locateOperators path
        ((site.under (.property before earlier heading later rest? after)).written.node start
          (some ((site.under (.property before earlier heading later rest? after)).caret : Int))
          comma) =
      stage.locate path
        (site.written.node
          (start + (Layer.property before earlier heading later rest? after).leading.length)
          (some (site.caret : Int))
          (Layer.property before earlier heading later rest? after).more?.isSome) := by
  obtain ⟨raw, properties, key, node, names, property, behindKey, name⟩ :=
    wellFormed.exists_node_plug_property inside start comma
  have allDollared := (any_not_dollar_eq_false_iff _).mpr dollared
  rw [Layer.names, ← names] at allDollared
  rw [← name] at known
  rw [Site.written_under, Site.caret_under, node, locateOperators_object, allDollared,
    if_neg Bool.false_ne_true, Option.bind_some, locateName_of_no_cursor property behindKey,
    Option.none_or, property, Option.bind_some,
    @locateOperatorValue_of_stage _ (some key, _) _ known]

/-- In an array of selectors the walk goes through each layer. -/
theorem locateOperand_under {earlier later : List Written}
    (inside : site.caret ≤ site.written.text.length) (start : Nat) (comma : Bool) :
    locateOperand path
        ((site.under (.value before earlier later rest? after)).written.node start
          (some ((site.under (.value before earlier later rest? after)).caret : Int)) comma) =
      locateSelector path
        (site.written.node
          (start + (Layer.value before earlier later rest? after).leading.length)
          (some (site.caret : Int))
          (Layer.value before earlier later rest? after).more?.isSome) := by
  obtain ⟨raw, values, node, value⟩ :=
    @Layer.exists_node_plug_value rest? before after earlier later _ _ inside start comma
  rw [Site.written_under, Site.caret_under, node, locateOperand_array, Option.bind_some, value,
    Option.bind_some]

end

/-- An object shows itself to the walk for a value of a field as an object of operators. -/
theorem Leads.exists_object {path inner : Text} {layers : List Layer} {vocabulary : Vocabulary}
    (leads : Leads .operators path layers vocabulary inner) (site : Site) :
    ∃ before properties rest? after,
      (site.within layers).written = .object before properties rest? after := by
  cases leads with
  | operators => exact ⟨_, _, _, _, rfl⟩
  | operator => exact ⟨_, _, _, _, rfl⟩

/-- The walk that leads through layers comes to the object in their hole. -/
theorem Leads.locate_within {stage : Stage} {path inner : Text} {layers : List Layer}
    {vocabulary : Vocabulary} (leads : Leads stage path layers vocabulary inner)
    (wellFormed : ∀ layer ∈ layers, layer.WellFormed) {site : Site}
    (inside : site.position ≤ site.object.text.length) (start : Nat) (comma : Bool) :
    ∃ behind, stage.locate path
        ((site.within layers).written.node start (some ((site.within layers).caret : Int)) comma) =
      vocabulary.stage.locate inner ((site.within layers).node start behind) := by
  have fits (layers : List Layer) :
      (site.within layers).caret ≤ (site.within layers).written.text.length :=
    Site.caret_le inside
  induction leads generalizing start comma with
  | fields => exact ⟨comma, by rw [site.node_within_nil]; rfl⟩
  | operators => exact ⟨comma, by rw [site.node_within_nil]; rfl⟩
  | fieldValue leads induct =>
      -- The value of a field is no layer of its own: the walk stays at the same object.
      obtain ⟨behind, located⟩ := induct wellFormed start comma
      refine ⟨behind, located ▸ ?_⟩
      obtain ⟨before, properties, rest?, after, object⟩ := leads.exists_object site
      rw [object, Written.node, Stage.locate, locateFieldValue]
      rfl
  | @property path inner before earlier later heading rest? after layers vocabulary leads induct =>
      rcases List.forall_mem_cons.mp wellFormed with ⟨outer, others⟩
      obtain ⟨behind, located⟩ := induct others
        (start + (Layer.property before earlier heading later rest? after).leading.length)
        (Layer.property before earlier heading later rest? after).more?.isSome
      refine ⟨behind, ?_⟩
      rw [Site.within_cons, Site.node_under, ← located]
      exact locateSelector_under outer (fits layers) start comma
  | @operand path inner before earlier later rest? after layers vocabulary leads induct =>
      rcases List.forall_mem_cons.mp wellFormed with ⟨_, others⟩
      obtain ⟨behind, located⟩ := induct others
        (start + (Layer.value before earlier later rest? after).leading.length)
        (Layer.value before earlier later rest? after).more?.isSome
      refine ⟨behind, ?_⟩
      rw [Site.within_cons, Site.node_under, ← located]
      exact locateOperand_under (fits layers) start comma
  | @operator path inner before earlier later heading rest? after layers vocabulary stage dollared
      known leads induct =>
      rcases List.forall_mem_cons.mp wellFormed with ⟨outer, others⟩
      obtain ⟨behind, located⟩ := induct others
        (start + (Layer.property before earlier heading later rest? after).leading.length)
        (Layer.property before earlier heading later rest? after).more?.isSome
      refine ⟨behind, ?_⟩
      rw [Site.within_cons, Site.node_under, ← located]
      exact locateOperators_under outer dollared known (fits layers) start comma

/-- The walk that leads through the layers of a site comes to its object. -/
theorem Leads.locate_written {stage : Stage} {path inner : Text} {vocabulary : Vocabulary}
    {site : Site} (leads : Leads stage path site.layers vocabulary inner)
    (wellFormed : ∀ layer ∈ site.layers, layer.WellFormed)
    (inside : site.position ≤ site.object.text.length) (start : Nat) (comma : Bool) :
    ∃ behind, stage.locate path (site.written.node start (some (site.caret : Int)) comma) =
      vocabulary.stage.locate inner (site.node start behind) :=
  leads.locate_within wellFormed inside start comma

/-! ## Typed names -/

/-- The caret stands in the name of a key of the object, behind a typed part. -/
def Site.Types (site : Site) (typed : Text) : Prop :=
  ∃ earlier heading value later, site.properties = earlier ++ (heading, value) :: later ∧
    typed <+: heading.name ∧
      site.position =
        site.before.length + 1 + (propertyOffset earlier + (heading.opening.length + typed.length))

theorem Site.Types.inside {site : Site} {typed : Text} (types : site.Types typed) :
    site.position ≤ site.object.text.length := by
  rcases types with ⟨earlier, heading, value, later, properties, begins, position⟩
  have part := begins.length_le
  have key := heading.opening_add_name_le
  rw [object, Written.text, properties, propertyTexts_append, propertyTexts, joined_append_cons,
    position, propertyOffset]
  simp only [List.length_append, List.length_cons]
  omega

/-- What is typed of a name is found in the text of the tree, under the path of its object. -/
theorem Site.Types.locate {site : Site} {typed path : Text} {vocabulary : Vocabulary}
    (types : site.Types typed) (wellFormed : site.written.WellFormed)
    (leads : Leads .selector [] site.layers vocabulary path)
    (dollared : vocabulary = .operators → Dollared (writtenNames site.properties)) :
    ∃ focus others, (parse site.written.text site.caret).locate = some focus ∧
      focus.path = path ∧ focus.sought = .name vocabulary (some typed) others := by
  obtain ⟨layers, object⟩ := wellFormed_of_filled wellFormed site.not_isBlank_object
  obtain ⟨behind, located⟩ := leads.locate_written layers types.inside 0 false
  have caret : textCaret (site.caret : Int) = some (site.caret : Int) := by
    rw [textCaret, if_neg (Int.not_lt.mpr (Int.natCast_nonneg _))]
  rcases types with ⟨earlier, heading, value, later, properties, begins, position⟩
  have headed : Headed (earlier ++ (heading, value) :: later) site.rest? := by
    rw [← properties]
    cases object with
    | object _ _ _ headed _ => exact headed
  obtain ⟨focus, others, named, sought⟩ :=
    @exists_nameAt_of_key site.before site.after earlier later heading value site.rest?
      (0 + (ahead site.layers).length) behind headed typed.length begins.length_le vocabulary path
  rw [← properties, ← position] at named
  change (site.node 0 behind).nameAt vocabulary path = some focus at named
  have found := locate_of_nameAt (fun operators => by
    rw [Site.names_node]
    exact dollared operators) named
  refine ⟨focus, others, ?_, (of_nameAt named).1, ?_⟩
  · rw [wellFormed.parse, caret]
    exact located.trans found
  · rw [sought, ← List.prefix_iff_eq_take.mp begins]

end Typeahead.Selector
