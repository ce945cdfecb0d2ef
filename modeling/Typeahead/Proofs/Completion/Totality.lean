import Typeahead.Completion.Basic
import Typeahead.Proofs.Acceptance.Spelling
import Typeahead.Proofs.Fuzzy.Columns
import Typeahead.Proofs.Selector.Origin
import Typeahead.Proofs.Selector.RoundTrip
import Typeahead.Proofs.Selector.Walk
import Typeahead.Proofs.Text.Trim

/-!
# Completing without failing

Completions are highlighted by aligning each offered text with the typed part. An alignment fails
exactly for a typed part that gets longer in lower case, and the typed part is written in the text.
So completing fails only in texts with a dotted capital I, and there only if a text is offered for a
typed part that holds it.
-/

namespace Typeahead.Completion

open Selector
open Fuzzy (Prices Fills)

/-! ## The typed part -/

section Typed

variable {text : Text}

/-- The name of a key is written in the source that it is taken from. -/
theorem name_subset_of_takeKey {source : Source} {key : Key} (taken : source.takeKey.1 = some key) :
    key.name ⊆ source.raw := by
  unfold Source.takeKey at taken
  simp only at taken
  split at taken
  · contradiction
  · cases taken
    exact List.Subset.trans (List.drop_subset _ _) (List.take_subset _ _)

/-- The names in an object of a tree are written in the text. -/
theorem name_subset_of_part {caret : Int} {raw : Text} {start : Nat} {cursor : Option Nat}
    {properties : List (Option Key × Node)}
    (part : (parse text caret).Part (.object raw start cursor properties)) {key : Key}
    {value : Node} (member : (some key, value) ∈ properties) : key.name ⊆ text := by
  have whole : (Source.mk text 0 (if caret < 0 then none else some caret)).Lies text 0 :=
    ⟨Nat.le_refl 0, Shows.whole _⟩
  obtain ⟨source, lies, looked⟩ := (keeps_lies text).exists_source whole part
  obtain ⟨body, found, -, rfl⟩ := Chunk.exists_of_node_eq_object looked
  obtain ⟨⟨key?, chunk⟩, among, same⟩ := List.mem_map.mp member
  obtain ⟨rfl, rfl⟩ := Prod.mk.inj same
  obtain ⟨origin, inside, taken⟩ := Source.exists_take_of_mem_elements_of_keeps
    (fun _ => (keeps_lies text).property) ((keeps_lies text).body lies found) among
  exact List.Subset.trans (name_subset_of_takeKey (congrArg Prod.fst taken))
    inside.shows.subset

/-- What is typed at the caret is written in the text. -/
theorem typed_subset {caret : Int} {focus : Focus}
    (located : (parse text caret).locate = some focus) : focus.sought.typed ⊆ text := by
  have below := Node.below_of_locate located
  cases sought : focus.sought with
  | name vocabulary typed? others =>
      cases typed? with
      | none => exact List.nil_subset _
      | some typed =>
          obtain ⟨_, _, _, _, context, key, value, member, begins⟩ := below.spells _ _ _ sought
          have part := below.part
          rw [context] at part
          exact List.Subset.trans begins.subset (name_subset_of_part part member)
  | value typed choices =>
      rcases below.fits typed choices sought with rfl | ⟨rfl, -⟩
      · obtain ⟨chunk, lies, looked⟩ := exists_chunk_of_locate located
        rw [← looked, Chunk.node_raw]
        exact List.Subset.trans (Text.value_subset _) lies.shows.subset
      · exact List.nil_subset _

theorem comparedPart_subset (sought : Sought) : comparedPart sought ⊆ sought.typed := by
  unfold comparedPart
  split
  · exact List.IsSuffix.subset ⟨_, Text.throughLast_append_afterLast '.' _⟩
  · exact List.Subset.refl _
  · exact Text.trim_subset _

end Typed

/-! ## Completing -/

/-- The completions of a focus: each offered text in stretches, with an alignment whose table fits
the typed part and the text. -/
structure Offers (focus : Focus) (schema : Schema) (completions : List Completion) :
    Prop where
  texts : completions.map (·.text) = textsAt focus schema
  joined : ∀ completion ∈ completions, completion.highlight.flatten = completion.text
  fills : ∀ completion ∈ completions,
    Fills (comparedPart focus.sought) completion.text
      (Fuzzy.columns (Prices.standard (κ := Float)) (comparedPart focus.sought).lower
        completion.text)

/-- Where texts are offered, the typed part keeps its length in lower case. -/
def Completable (tree : Node) (schema? : Option Schema) : Prop :=
  ∀ focus ∈ tree.locate, ∀ schema ∈ schema?,
    textsAt focus schema = [] ∨ 'İ' ∉ comparedPart focus.sought

/-- The completion of a focus with a text. -/
def offered (focus : Focus) (text : Text) : Completion where
  text := text
  kind := focus.sought.kind
  highlight := Fuzzy.highlightLowered (Prices.standard (κ := Float)) text
    (comparedPart focus.sought).lower
  context := focus.context

theorem all_of_located {tree : Node} {focus : Focus} (located : tree.locate = some focus)
    (schema : Schema) : all tree (some schema) = atFocus focus schema := by
  unfold all
  rw [located]

theorem all_of_not_located {tree : Node} (nowhere : tree.locate = none)
    (schema? : Option Schema) : all tree schema? = .ok [] := by
  unfold all
  rw [nowhere]
  cases schema? <;> rfl

section Focused

variable {focus : Focus} {schema : Schema}

theorem atFocus_of_not_mem (absent : 'İ' ∉ comparedPart focus.sought) :
    atFocus focus schema = .ok ((textsAt focus schema).map (offered focus)) := by
  simp only [atFocus, Fuzzy.highlight, Fuzzy.comparedQuery_of_not_mem absent]
  exact List.mapM_pure

/-- No text is highlighted for a typed part that gets longer in lower case. -/
theorem atFocus_of_mem (present : 'İ' ∈ comparedPart focus.sought) {text : Text}
    {others : List Text} (texts : textsAt focus schema = text :: others) :
    atFocus focus schema = .error .growsInLowerCase := by
  simp only [atFocus, Fuzzy.highlight, Fuzzy.comparedQuery_of_mem present, texts, List.mapM_cons]
  rfl

theorem exists_atFocus_iff :
    (∃ completions, atFocus focus schema = .ok completions) ↔
      textsAt focus schema = [] ∨ 'İ' ∉ comparedPart focus.sought := by
  by_cases present : 'İ' ∈ comparedPart focus.sought
  · cases texts : textsAt focus schema with
    | nil =>
        refine iff_of_true ⟨[], ?_⟩ (.inl rfl)
        rw [atFocus, texts]
        rfl
    | cons text others =>
        rw [atFocus_of_mem present texts]
        simp [present]
  · exact iff_of_true ⟨_, atFocus_of_not_mem present⟩ (.inr present)

theorem offers_of_atFocus {completions : List Completion}
    (completed : atFocus focus schema = .ok completions) : Offers focus schema completions := by
  by_cases present : 'İ' ∈ comparedPart focus.sought
  · rcases exists_atFocus_iff.mp ⟨completions, completed⟩ with texts | absent
    · rw [atFocus, texts] at completed
      cases completed
      exact ⟨texts.symm, by simp, by simp⟩
    · exact absurd present absent
  · rw [atFocus_of_not_mem present] at completed
    cases completed
    constructor
    case texts =>
      rw [List.map_map]
      exact List.map_id _
    case joined =>
      simp only [List.forall_mem_map]
      exact fun text _ => Fuzzy.flatten_stretches _ _ _ text
    case fills =>
      simp only [List.forall_mem_map]
      exact fun text _ => (Fuzzy.fills_columns_iff _ _ text).mpr present

end Focused

/-- Completing a text fails exactly where texts are offered for a typed part that gets longer in
lower case, and then the text holds a dotted capital I. Otherwise all offered texts are highlighted,
each in a table that its alignment fills. -/
theorem exists_all_parse_iff (text : Text) (caret : Int) (schema? : Option Schema) :
    ((∃ completions, all (parse text caret) schema? = .ok completions) ↔
        Completable (parse text caret) schema?) ∧
      ('İ' ∉ text → Completable (parse text caret) schema?) ∧
      ∀ completions, all (parse text caret) schema? = .ok completions →
        ∀ focus ∈ (parse text caret).locate, ∀ schema ∈ schema?,
          Offers focus schema completions := by
  refine ⟨?_, ?_, ?_⟩
  · cases schema? with
    | none => exact iff_of_true ⟨[], rfl⟩ (by simp [Completable])
    | some schema =>
        cases located : (parse text caret).locate with
        | none =>
            exact iff_of_true ⟨[], all_of_not_located located _⟩ (by simp [Completable, located])
        | some focus =>
            rw [all_of_located located, Completable, located]
            simpa using exists_atFocus_iff
  · intro absent focus located schema _
    exact .inr fun present =>
      absent (typed_subset located (comparedPart_subset focus.sought present))
  · rintro completions completed focus located schema rfl
    rw [all_of_located located] at completed
    exact offers_of_atFocus completed

/-- An operator with a dotted capital I as its value. -/
def dottedOperator : Written :=
  .object [] [(⟨[], .bare "$exists", [], true⟩, .atom [] ['İ'] [])] none []

/-- A field with this operator. -/
def dottedSelector : Written :=
  .object [] [(⟨[], .bare ['a'], [], true⟩, dottedOperator)] none []

theorem dottedSelector_wellFormed : dottedSelector.WellFormed := by
  have field : (Label.bare ['a']).WellFormed := @Acceptance.labelFor_wellFormed '"' rfl ['a']
  have operator : (Label.bare "$exists").WellFormed :=
    @Acceptance.labelFor_wellFormed '"' rfl "$exists"
  have dotted : IsAtom ['İ'] := isAtom_singleton rfl rfl rfl (by decide)
  have value : (Written.atom [] ['İ'] []).WellFormed := .atom rfl rfl (.inr dotted)
  have inner : dottedOperator.WellFormed :=
    .object rfl rfl (by simp) ⟨⟨rfl, operator, rfl⟩, by simp, trivial⟩
      (List.forall_mem_singleton.mpr value)
  exact .object rfl rfl (by simp) ⟨⟨rfl, field, rfl⟩, by simp, trivial⟩
    (List.forall_mem_singleton.mpr inner)

/-- The truth values are offered whatever is typed, but not for a dotted capital I. -/
theorem all_dottedSelector :
    ∃ focus, (parse "{a:{$exists:İ}}".toList 13).locate = some focus ∧
      textsAt focus ⟨[], 0⟩ = ["true".toList, "false".toList] ∧
        all (parse "{a:{$exists:İ}}".toList 13) (some ⟨[], 0⟩) = .error .growsInLowerCase := by
  have read : parse "{a:{$exists:İ}}".toList 13 = dottedSelector.node 0 (some 13) false :=
    dottedSelector_wellFormed.parse 13
  have located : (parse "{a:{$exists:İ}}".toList 13).locate = some
      { sought := .value ['İ'] (.listed ["true".toList, "false".toList] false)
        path := ['a']
        context := .span ['İ'] 12 (some 1) } := by
    rw [read, Node.locate, dottedSelector, Written.node, locateSelector_object]
    change locateFieldValue ['a'] (Node.object _ _ _ _) = _
    rw [locateFieldValue, locateOperators_object]
    rfl
  refine ⟨_, located, rfl, ?_⟩
  rw [all_of_located located]
  exact atFocus_of_mem List.mem_cons_self rfl

end Typeahead.Completion
