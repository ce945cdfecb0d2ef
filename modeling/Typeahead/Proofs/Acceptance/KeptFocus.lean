import Typeahead.Completion.Basic
import Typeahead.Proofs.Acceptance.Adding

/-!
# The focus after accepting a name

Completions are offered for the name at the caret, each with the kind and the node that accepting it
needs. When one of them is accepted in a well-formed text, the changed text has its focus on the
accepted name, in the same vocabulary and under the same path.
-/

namespace Typeahead.Acceptance

open Selector

/-! ## Offered completions -/

theorem exists_of_mem_mapM {α β ε : Type} {f : α → Except ε β} {xs : List α} {ys : List β}
    (mapped : xs.mapM f = .ok ys) {y : β} (member : y ∈ ys) : ∃ x ∈ xs, f x = .ok y := by
  induction xs generalizing ys with
  | nil =>
      rw [List.mapM_nil] at mapped
      cases mapped
      contradiction
  | cons first more induct =>
      rw [List.mapM_cons] at mapped
      cases here : f first with
      | error failure =>
          rw [here] at mapped
          contradiction
      | ok image =>
          cases others : more.mapM f with
          | error failure =>
              rw [here, others] at mapped
              contradiction
          | ok images =>
              rw [here, others] at mapped
              cases mapped
              rcases List.mem_cons.mp member with rfl | later
              · exact ⟨first, List.mem_cons_self, here⟩
              · obtain ⟨x, among, found⟩ := induct others later
                exact ⟨x, List.mem_cons_of_mem _ among, found⟩

/-- A completion is one of the texts for the focus, with the kind and the node of the focus. -/
theorem of_mem_completions {tree : Node} {schema : Schema} {focus : Focus}
    (located : tree.locate = some focus) {completions : List Completion}
    (offered : Completion.all tree (some schema) = .ok completions) {completion : Completion}
    (member : completion ∈ completions) :
    completion.text ∈ Completion.textsAt focus schema ∧
      completion.kind = focus.sought.kind ∧ completion.context = focus.context := by
  unfold Completion.all at offered
  rw [located] at offered
  obtain ⟨text, among, found⟩ := exists_of_mem_mapM offered member
  cases highlighted : Fuzzy.highlight (Fuzzy.Prices.standard : Fuzzy.Prices Float) text
      (Completion.comparedPart focus.sought) with
  | error failure =>
      rw [highlighted] at found
      contradiction
  | ok highlight =>
      rw [highlighted] at found
      cases found
      exact ⟨among, rfl, rfl⟩

/-- The operators that are offered begin with their sign. -/
theorem head?_of_mem_operatorTexts {typed completion : Text} {others : List Text}
    {flags? : Option (Schema.Flags Float Text)}
    (member : completion ∈ Completion.operatorTexts typed flags? others) :
    completion.head? = some '$' := by
  unfold Completion.operatorTexts at member
  have among := (List.mergeSort_perm _ _).mem_iff.mp (List.mem_of_mem_take member)
  rcases List.mem_filter.mp among with ⟨_, matched⟩
  have begins := List.isPrefixOf_iff_prefix.mp (Bool.and_eq_true_iff.mp matched).2
  rcases begins with ⟨rest, rfl⟩
  rw [List.head?_append]
  split
  · rename_i dollar
    rw [dollar]
    rfl
  · rfl

/-! ## Names of operators -/

theorem head?_of_begins {first second : Text} {c : Char} (begins : first <+: second)
    (starts : first.head? = some c) : second.head? = some c := by
  rcases begins with ⟨rest, rfl⟩
  rw [List.head?_append, starts]
  rfl

theorem head?_spelled {name : Text} (dollar : name.head? = some '$') :
    (spelled name).head? = some '$' := by
  cases name with
  | nil => contradiction
  | cons c rest =>
      rw [List.head?_cons, Option.some.injEq] at dollar
      subst dollar
      unfold spelled
      split <;> rfl

/-- The name that replaces that of an operator begins with the sign of operators. -/
theorem head?_replacingName {name completion : Text} (dollar : name.head? = some '$')
    (sign : completion.head? = some '$') (offset : Nat) :
    (replacingName name offset completion).head? = some '$' := by
  have kept : Text.throughLast '.' (name.take offset) <+: name :=
    List.IsPrefix.trans ⟨_, Text.throughLast_append_afterLast '.' _⟩ (List.take_prefix _ _)
  rw [replacingName]
  cases shape : Text.throughLast '.' (name.take offset) with
  | nil => exact sign
  | cons c rest =>
      rcases kept with ⟨more, whole⟩
      rw [← whole, shape] at dollar
      exact dollar

section

variable {site : Site} {earlier later : List (Heading × Written)} {heading : Heading}
  {value : Written}

theorem dollared_renamed (properties : site.properties = earlier ++ (heading, value) :: later)
    (dollared : Dollared (writtenNames site.properties)) {completion : Text}
    (sign : completion.head? = some '$') (offset : Nat) :
    Dollared (writtenNames (renamed site earlier heading value later
      (replacingName heading.name offset completion)).properties) := by
  rw [properties, writtenNames, List.map_append, List.map_cons] at dollared
  intro name member
  simp only [renamed, writtenNames, List.map_append, List.map_cons] at member
  rcases List.mem_append.mp member with front | back
  · exact dollared name (List.mem_append_left _ front)
  · rcases List.mem_cons.mp back with rfl | behind
    · have old := dollared heading.name (List.mem_append_right _ List.mem_cons_self)
      exact head?_of_begins (spelled_begins _ _ _ _ _)
        (head?_spelled (head?_replacingName old sign offset))
    · exact dollared name (List.mem_append_right _ (List.mem_cons_of_mem _ behind))

theorem dollared_extended (dollared : Dollared (writtenNames site.properties)) {name : Text}
    (sign : name.head? = some '$') (blanks : Text) (quote : Char) :
    Dollared (writtenNames (extended site blanks quote name).properties) := by
  intro other member
  simp only [extended, writtenNames, List.map_append, List.map_cons, List.map_nil] at member
  rcases List.mem_append.mp member with front | back
  · exact dollared other front
  · rw [List.mem_singleton.mp back]
    exact head?_of_begins (spelled_begins _ _ _ _ _) (head?_spelled sign)

end

/-! ## The focus -/

/-- An edit turns a site into one in which the caret stands behind a typed name. -/
def Writes (edit : Edit) (site : Site) (vocabulary : Vocabulary) (typed : Text) : Prop :=
  ∃ other, Turns edit site other ∧ other.object.WellFormed ∧
    (vocabulary = .operators → Dollared (writtenNames other.properties)) ∧ other.Types typed

/-- After an edit that writes a name the focus is on this name. -/
theorem Writes.locate {edit : Edit} {site : Site} {vocabulary : Vocabulary} {typed path : Text}
    (writes : Writes edit site vocabulary typed) (wellFormed : site.written.WellFormed)
    (leads : Leads .selector [] site.layers vocabulary path) :
    ∃ focus others, (parse (edit.apply site.written.text) edit.caret).locate = some focus ∧
      focus.path = path ∧ focus.sought = .name vocabulary (some typed) others := by
  rcases writes with ⟨other, turns, object, dollared, types⟩
  obtain ⟨layers, _⟩ := wellFormed_of_filled wellFormed site.not_isBlank_object
  rw [← turns.layers] at layers leads
  rw [turns.text, turns.caret]
  exact types.locate (wellFormed_filled layers object other.not_isBlank_object) leads dollared

section

variable {site : Site} {vocabulary : Vocabulary} {completion : Text}

theorem writes_replaceName (wellFormed : site.object.WellFormed)
    {earlier later : List (Heading × Written)} {heading : Heading} {value : Written}
    (properties : site.properties = earlier ++ (heading, value) :: later)
    (dollared : vocabulary = .operators → Dollared (writtenNames site.properties))
    (sign : vocabulary = .operators → completion.head? = some '$') (caret : Caret) (offset : Nat) :
    Writes
      (replaceName (heading.key
        ((ahead site.layers).length + (site.before.length + 1) + propertyOffset earlier) caret)
          offset completion)
      site vocabulary (spelled (replacingName heading.name offset completion)) :=
  ⟨_, turns_replaceName wellFormed properties caret offset completion,
    renamed_wellFormed wellFormed properties _,
    fun operators => dollared_renamed properties (dollared operators) (sign operators) offset,
    renamed_types _⟩

theorem writes_insertProperty (wellFormed : site.object.WellFormed)
    (colon : EndsWithColon site.properties)
    (dollared : vocabulary = .operators → Dollared (writtenNames site.properties))
    (sign : vocabulary = .operators → completion.head? = some '$') (comma : Bool)
    (properties : List (Option Key × Node)) :
    Writes (insertProperty site.written.text completion (site.node 0 comma) properties) site
      vocabulary (spelled completion) := by
  obtain ⟨blanks, blank, turns⟩ := exists_turns_insertProperty wellFormed colon
    (some (site.position : Int)) comma completion properties
  rw [← Nat.zero_add (ahead site.layers).length] at turns
  exact ⟨_, turns,
    extended_wellFormed wellFormed colon blank (isQuote_quoteStyle properties) completion,
    fun operators => dollared_extended (dollared operators) (sign operators) _ _,
    extended_types _ _ _⟩

/-- The accepted completion of a name replaces what is typed behind its last point. -/
theorem exists_edit_of_nameAt (wellFormed : site.object.WellFormed) {path : Text} {comma : Bool}
    {focus : Focus} (named : (site.node 0 comma).nameAt vocabulary path = some focus)
    (dollared : vocabulary = .operators → Dollared (writtenNames site.properties))
    (sign : vocabulary = .operators → completion.head? = some '$') :
    ∃ edit typed? others, focus.sought = .name vocabulary typed? others ∧
      accept site.written.text completion focus.sought.kind (site.node 0 comma) = .ok edit ∧
        Writes edit site vocabulary
          (spelled (Text.throughLast '.' (typed?.getD []) ++ completion)) := by
  have headed : Headed site.properties site.rest? := by
    cases wellFormed with
    | object _ _ _ headed _ => exact headed
  rcases nameAt_cases headed named with
    ⟨earlier, heading, value, later, offset, others, properties, here, inside, sought⟩ |
      ⟨room, absent, others, sought⟩
  · have cursor := (@Heading.key_cursor_eq_some_iff heading
      ((ahead site.layers).length + (site.before.length + 1) + propertyOffset earlier) _
        offset).mpr ⟨rfl, inside⟩
    rw [Nat.zero_add] at here
    have edit := @acceptName_of_key site.written.text completion (site.node 0 comma) _ _ _
      (by rw [Site.node, Nat.zero_add]; exact here) cursor
    refine ⟨_, _, others, sought, ?_,
      writes_replaceName wellFormed properties dollared sign
        (some ((heading.opening.length + offset : Nat) : Int)) offset⟩
    rw [sought, ← edit]
    cases vocabulary <;> rfl
  · obtain ⟨raw, start, cursor, properties, node⟩ : ∃ raw start cursor properties,
        site.node 0 comma = .object raw start cursor properties := ⟨_, _, _, _, rfl⟩
    have writes := writes_insertProperty wellFormed (headed.endsWithColon room) dollared sign comma
      properties
    change (site.node 0 comma).propertyAt = none at absent
    rw [node] at absent writes ⊢
    refine ⟨_, none, others, sought, ?_, writes⟩
    rw [sought]
    exact congrArg Except.ok (acceptName_of_no_property absent)

end

/-- When a completion of a name is accepted in a well-formed text, then the changed text has its
focus on the name that was accepted, in the same vocabulary and under the same path. Accepted is the
completion behind what was typed up to the last point, as it is spelled. -/
theorem exists_edit_locate {written : Written} (wellFormed : written.WellFormed) {caret : Int}
    {focus : Focus} (located : (parse written.text caret).locate = some focus)
    {vocabulary : Vocabulary} {typed? : Option Text} {others : List Text}
    (sought : focus.sought = .name vocabulary typed? others) {schema : Schema}
    {completions : List Completion}
    (offered : Completion.all (parse written.text caret) (some schema) = .ok completions)
    {completion : Completion} (member : completion ∈ completions) :
    ∃ edit after others,
      accept written.text completion.text completion.kind completion.context = .ok edit ∧
        (parse (edit.apply written.text) edit.caret).locate = some after ∧
          after.path = focus.path ∧
            after.sought = .name vocabulary
              (some (spelled (Text.throughLast '.' (typed?.getD []) ++ completion.text)))
              others := by
  obtain ⟨text, kind, context⟩ := of_mem_completions located offered member
  have isName : focus.sought.IsName := by
    rw [sought]
    trivial
  rw [wellFormed.parse] at located
  obtain ⟨site, found, comma, rfl, _, finds⟩ :=
    @Written.WellFormed.hasSites _ wellFormed .selector _ _ _ _ _ located isName
  obtain ⟨_, object⟩ := wellFormed_of_filled wellFormed site.not_isBlank_object
  obtain ⟨_, node, _, _, same⟩ := of_nameAt finds.named
  rw [sought, Sought.name.injEq] at same
  rcases same with ⟨rfl, _, _⟩
  have sign : vocabulary = .operators → completion.text.head? = some '$' := by
    rintro rfl
    rw [Completion.textsAt, sought] at text
    exact head?_of_mem_operatorTexts text
  -- The context around the object stays, so that the walk comes to the new name in the same way.
  obtain ⟨edit, typedAt?, othersAt, soughtAt, accepted, writes⟩ :=
    exists_edit_of_nameAt object finds.named finds.dollared sign
  obtain ⟨after, others, locatedAfter, path, soughtAfter⟩ := writes.locate wellFormed finds.leads
  rw [sought, Sought.name.injEq] at soughtAt
  rcases soughtAt with ⟨_, rfl, _⟩
  rw [← node, ← kind, ← context] at accepted
  exact ⟨edit, after, others, accepted, locatedAfter, path, soughtAfter⟩

/-! ## An operator without a colon -/

/-- An object of an operator of which a part is typed. -/
def halfOperator : Written :=
  .object [' '] [(⟨[], .bare ['$', 'n', 'o'], [], false⟩, .atom [] [] [])] none []

/-- A field with this object as its value. -/
def halfSelector : Written :=
  .object [] [(⟨[], .bare ['a'], [], true⟩, halfOperator)] none []

/-- The name at the end of the typed part. -/
def halfFocus : Focus where
  sought := .name .operators (some ['$', 'n', 'o']) []
  path := ['a']
  context := halfOperator.node 3 (some 5) false

theorem halfSelector_wellFormed : halfSelector.WellFormed := by
  have field : (Label.bare ['a']).WellFormed := @labelFor_wellFormed '"' rfl ['a']
  have operator : (Label.bare ['$', 'n', 'o']).WellFormed :=
    @labelFor_wellFormed '"' rfl ['$', 'n', 'o']
  have value : halfOperator.WellFormed := by
    refine .object rfl rfl (by simp) ⟨⟨rfl, operator, rfl⟩, fun _ => ⟨rfl, rfl, rfl⟩, trivial⟩ ?_
    simp only [List.mem_singleton]
    rintro property rfl
    exact .atom rfl rfl (.inl rfl)
  refine .object rfl rfl (by simp) ⟨⟨rfl, field, rfl⟩, by simp, trivial⟩ ?_
  simp only [List.mem_singleton]
  rintro property rfl
  exact value

theorem locate_halfSelector : (parse halfSelector.text 8).locate = some halfFocus := by
  rw [halfSelector_wellFormed.parse, halfSelector, Written.node, Node.locate,
    locateSelector_object]
  refine Option.bind_eq_some_iff.mpr ⟨0, rfl, Option.or_eq_some_iff.mpr (.inr ⟨rfl, ?_⟩)⟩
  refine Option.bind_eq_some_iff.mpr ⟨_, rfl, ?_⟩
  change locateFieldValue ['a'] (Node.object _ _ _ _) = _
  rw [locateFieldValue, locateOperators_object]
  rfl

theorem operatorTexts_half :
    Completion.operatorTexts ['$', 'n', 'o'] none [] = ["$not".toList] := by
  have found : Completion.commonOperators.filter (fun operator =>
      !([] : List Text).contains operator && List.isPrefixOf ['$', 'n', 'o'] operator) =
        ["$not".toList] := by
    decide
  have sorted := congrArg
    (fun found => (found.mergeSort Text.notAfter).take Completion.offerLimit) found
  simp only [List.mergeSort_singleton] at sorted
  exact sorted

theorem completions_halfSelector :
    ∃ highlight, Completion.all (parse halfSelector.text 8) (some ⟨[], 0⟩) = .ok
      [{ text := "$not".toList, kind := .operator, highlight, context := halfFocus.context }] := by
  have texts : Completion.textsAt halfFocus ⟨[], 0⟩ = ["$not".toList] := operatorTexts_half
  refine ⟨Fuzzy.highlightLowered (Fuzzy.Prices.standard : Fuzzy.Prices Float) "$not".toList
    ['$', 'n', 'o'], ?_⟩
  unfold Completion.all
  rw [locate_halfSelector]
  simp only
  rw [Completion.atFocus, texts, List.mapM_cons, List.mapM_nil]
  rfl

/-- The operator gets its colon, and the caret stays behind its name. -/
theorem exists_edit_locate_halfSelector :
    accept halfSelector.text "$not".toList .operator halfFocus.context =
        .ok { start := 5, removed := 3, inserted := "$not: ".toList, caret := 9 } ∧
      ∃ after others, (parse "\x7ba: \x7b$not: \x7d\x7d".toList 9).locate = some after ∧
        after.path = ['a'] ∧ after.sought = .name .operators (some "$not".toList) others := by
  have accepted : accept halfSelector.text "$not".toList .operator halfFocus.context =
      .ok { start := 5, removed := 3, inserted := "$not: ".toList, caret := 9 } :=
    rfl
  rcases completions_halfSelector with ⟨highlight, offered⟩
  obtain ⟨edit, after, others, found, located, path, sought⟩ :=
    exists_edit_locate halfSelector_wellFormed locate_halfSelector rfl offered
      List.mem_cons_self
  obtain rfl := Except.ok.inj (accepted.symm.trans found)
  exact ⟨accepted, after, others, located, path, sought⟩

end Typeahead.Acceptance
