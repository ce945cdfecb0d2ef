import Typeahead.Proofs.Selector.Pieces
import Typeahead.Proofs.Selector.Relocation

/-!
# What lies inside a container

The keys and values of an object and the elements of an array lie between the brackets of the
container, or between its opener and its end if it is not closed, in their order and without
overlap. There is one exception: a key without a colon reaches to the end of the body, and its
value, which is empty, is placed behind it as if a colon stood there. So it lies behind the body,
and it can lie behind the text.
-/

namespace Typeahead.Selector

/-! ## Stretches in order -/

/-- Stretches of a text, from a start to a stop, that lie between two places, in order and without
overlap. -/
def InOrder : Nat → Nat → List (Nat × Nat) → Prop
  | low, high, [] => low ≤ high
  | low, high, (start, stop) :: rest => low ≤ start ∧ start ≤ stop ∧ InOrder stop high rest

namespace InOrder

variable {low middle high : Nat} {stretches others : List (Nat × Nat)}

theorem le (inOrder : InOrder low high stretches) : low ≤ high := by
  induction stretches generalizing low with
  | nil => exact inOrder
  | cons first rest inductionHypothesis =>
      obtain ⟨before, within, behind⟩ := inOrder
      exact Nat.le_trans before (Nat.le_trans within (inductionHypothesis behind))

theorem append (left : InOrder low middle stretches) (right : InOrder middle high others) :
    InOrder low high (stretches ++ others) := by
  induction stretches generalizing low with
  | nil =>
      cases others with
      | nil => exact Nat.le_trans left right
      | cons first rest => exact ⟨Nat.le_trans left right.1, right.2⟩
  | cons first rest inductionHypothesis =>
      exact ⟨left.1, left.2.1, inductionHypothesis left.2.2⟩

theorem mono (inOrder : InOrder low middle stretches) (le : middle ≤ high) :
    InOrder low high stretches := by
  have behind : InOrder middle high [] := le
  have longer := inOrder.append behind
  rwa [List.append_nil] at longer

theorem of_mem (inOrder : InOrder low high stretches) {stretch : Nat × Nat}
    (member : stretch ∈ stretches) :
    low ≤ stretch.1 ∧ stretch.1 ≤ stretch.2 ∧ stretch.2 ≤ high := by
  induction stretches generalizing low with
  | nil => contradiction
  | cons first rest inductionHypothesis =>
      obtain ⟨before, within, behind⟩ := inOrder
      rcases List.mem_cons.mp member with rfl | later
      · exact ⟨before, within, behind.le⟩
      · obtain ⟨start, others⟩ := inductionHypothesis behind later
        exact ⟨Nat.le_trans before (Nat.le_trans within start), others⟩

end InOrder

/-! ## Keys -/

/-- Where a key ends, its colon included. -/
def Key.stop (key : Key) : Nat :=
  key.start + key.raw.length

/-- A colon ends the key. -/
def Key.hasColon (key : Key) : Bool :=
  (KeyScan.run 0 .blank key.raw).1 < key.raw.length

theorem KeyScan.le_run (position : Nat) (scan : KeyScan) (text : Text) :
    position ≤ (run position scan text).1 := by
  induction text generalizing position scan with
  | nil => exact Nat.le_add_right _ _
  | cons c rest inductionHypothesis =>
      rw [run]
      split
      · exact Nat.le_refl _
      · exact Nat.le_trans (Nat.le_succ position) (inductionHypothesis _ _)

/-- What stands behind the place where a key stops does not matter to it. -/
theorem KeyScan.run_take {position : Nat} {scan : KeyScan} {text : Text} {count : Nat}
    (inside : (run position scan text).1 < position + count) :
    run position scan (text.take count) = run position scan text := by
  induction text generalizing position scan count with
  | nil => rw [List.take_nil]
  | cons c rest inductionHypothesis =>
      cases count with
      | zero => exact absurd inside (Nat.not_lt.mpr (le_run position scan (c :: rest)))
      | succ count =>
          rw [List.take_succ_cons]
          cases stepped : scan.step position c with
          | none => simp only [run, stepped]
          | some next =>
              simp only [run, stepped] at inside ⊢
              exact inductionHypothesis (by omega)

/-- A key is taken with the colon at which it stops, or with all of the text. -/
theorem Source.takeKey_of_eq_some {source : Source} {key : Key}
    (taken : source.takeKey.1 = some key) :
    key.start = source.start ∧
      key.raw = source.raw.take ((KeyScan.run 0 .blank source.raw).1 + 1) ∧
        source.takeKey.2 = source.advance ((KeyScan.run 0 .blank source.raw).1 + 1) := by
  unfold takeKey at taken ⊢
  dsimp only at taken ⊢
  split at taken
  · contradiction
  · rw [← Option.some.inj taken]
    exact ⟨rfl, rfl, rfl⟩

/-- Behind a key with a colon reading goes on. Behind one without a colon nothing is left, and the
source starts behind the end. -/
theorem Source.behind_takeKey {source : Source} {key : Key} (taken : source.takeKey.1 = some key) :
    (key.hasColon = true ∧ source.takeKey.2.start = key.stop) ∨
      (key.hasColon = false ∧ source.takeKey.2.raw = [] ∧
        source.start + source.raw.length < source.takeKey.2.start) := by
  obtain ⟨start, raw, rest⟩ := takeKey_of_eq_some taken
  rw [rest]
  by_cases inside : (KeyScan.run 0 .blank source.raw).1 < source.raw.length
  · have length : key.raw.length = (KeyScan.run 0 .blank source.raw).1 + 1 := by
      rw [raw, List.length_take]
      omega
    refine .inl ⟨?_, ?_⟩
    · rw [Key.hasColon, decide_eq_true_iff, length, raw, KeyScan.run_take (by omega)]
      exact Nat.lt_succ_self _
    · rw [Key.stop, start, length]
      rfl
  · have whole : key.raw = source.raw := by
      rw [raw, List.take_of_length_le (by omega)]
    refine .inr ⟨?_, ?_, ?_⟩
    · rw [Key.hasColon, decide_eq_false_iff_not, whole]
      exact inside
    · exact List.drop_of_length_le (by omega)
    · change _ < source.start + _
      omega

/-! ## The stretches of elements -/

namespace Node

/-- The properties of an object. -/
def properties : Node → List (Option Key × Node)
  | object _ _ _ properties => properties
  | span .. | array .. => []

/-- Where a node stands in the text. -/
def stretch (node : Node) : Nat × Nat :=
  (node.start, node.stop)

/-- Where a property stands: the key, and the value if it counts behind the key. -/
def propertyStretches (counts : Key → Bool) : Option Key × Node → List (Nat × Nat)
  | (none, value) => [value.stretch]
  | (some key, value) => (key.start, key.stop) :: if counts key then [value.stretch] else []

/-- Where the elements of a container stand, but for values that do not count behind their keys. -/
def stretches (counts : Key → Bool) : Node → List (Nat × Nat)
  | span .. => []
  | object _ _ _ properties => properties.flatMap (propertyStretches counts)
  | array _ _ _ values => values.map stretch

end Node

namespace Source

/-- What was taken from a source that ends at a place stands there in order. Behind it the source is
used up, or reading goes on with what is left. -/
def Takes (high : Nat) (source : Source) (stretches : List (Nat × Nat)) (rest : Source) : Prop :=
  ∃ stop, InOrder source.start stop stretches ∧ stop ≤ high ∧
    (rest.raw = [] ∨ rest.start = stop ∧ rest.start + rest.raw.length = high)

variable {source : Source} {high : Nat}

theorem takes_value (ends : source.start + source.raw.length = high) :
    source.Takes high [source.takeValue.1.node.stretch] source.takeValue.2 := by
  have raw : source.takeValue.1.node.raw = source.raw.take (source.scanValue.1 + 1) :=
    source.takeValue.1.node_raw
  have start : source.takeValue.1.node.start = source.start := source.takeValue.1.node_start
  have length : source.takeValue.1.node.raw.length =
      min (source.scanValue.1 + 1) source.raw.length := by
    rw [raw, List.length_take]
  refine ⟨source.takeValue.1.node.stop, ⟨?_, ?_, Nat.le_refl _⟩, ?_, ?_⟩
  · exact Nat.le_of_eq start.symm
  · exact Nat.le_add_right _ _
  · rw [Node.stop, start, length]
    omega
  · by_cases whole : source.raw.length ≤ source.scanValue.1 + 1
    · exact .inl (List.drop_of_length_le whole)
    · refine .inr ⟨?_, ?_⟩
      · rw [Node.stop, start, length, Nat.min_eq_left (by omega)]
        rfl
      · change source.start + (source.scanValue.1 + 1) +
          (source.raw.drop (source.scanValue.1 + 1)).length = high
        rw [List.length_drop]
        omega

/-- Of a property the key stands in the text in front of the value, if a colon ends it. -/
theorem takes_property (visible : source.raw.isBlank = false)
    (ends : source.start + source.raw.length = high) :
    source.Takes high
      (Node.propertyStretches Key.hasColon
        (source.takeProperty.1.1, source.takeProperty.1.2.node)) source.takeProperty.2 := by
  change source.Takes high (Node.propertyStretches Key.hasColon
    (source.takeKey.1, source.takeKey.2.takeValue.1.node)) source.takeKey.2.takeValue.2
  cases taken : source.takeKey.1 with
  | none =>
      -- The blanks and the colon are dropped, and the value alone is counted.
      obtain ⟨blanks, blank, whole⟩ := exists_of_takeKey_eq_none visible taken
      have start : source.takeKey.2.start = source.start + (blanks.length + 1) := by
        rw [takeKey_of_blank_colon blank whole]
        rfl
      have split := congrArg List.length whole
      rw [List.length_append, List.length_cons] at split
      have valueEnds : source.takeKey.2.start + source.takeKey.2.raw.length = high := by
        omega
      obtain ⟨stop, ⟨low, others⟩, bound, rest⟩ := takes_value valueEnds
      exact ⟨stop, ⟨by omega, others⟩, bound, rest⟩
  | some key =>
      have takes := takesKey_of_eq_some taken
      have split := congrArg List.length takes.raw
      rw [List.length_append] at split
      rcases behind_takeKey taken with ⟨hasColon, start⟩ | ⟨noColon, empty, _⟩
      · have keyEnds : source.takeKey.2.start + source.takeKey.2.raw.length = high := by
          rw [start, Key.stop, takes.start]
          omega
        obtain ⟨stop, inOrder, bound, rest⟩ := takes_value keyEnds
        refine ⟨stop, ?_, bound, rest⟩
        rw [Node.propertyStretches, hasColon, if_pos rfl]
        refine ⟨Nat.le_of_eq takes.start.symm, Nat.le_add_right _ _, ?_⟩
        rw [← start]
        exact inOrder
      · -- The key takes up the text, and the value behind it does not count.
        rw [Node.propertyStretches, noColon, if_neg Bool.false_ne_true]
        refine ⟨key.stop, ⟨Nat.le_of_eq takes.start.symm, Nat.le_add_right _ _, Nat.le_refl _⟩,
          ?_, .inl ?_⟩
        · rw [Key.stop, takes.start]
          omega
        · change source.takeKey.2.raw.drop _ = []
          rw [empty, List.drop_nil]

/-- The elements of a body stand between its ends, in order. -/
theorem inOrder_elements {α : Type} {take : Source → α × Source}
    {shortens : ∀ source, source.raw ≠ [] → (take source).2.raw.length < source.raw.length}
    {stretches : α → List (Nat × Nat)}
    (takes : ∀ part : Source, part.raw.isBlank = false → part.start + part.raw.length = high →
      part.Takes high (stretches (take part).1) (take part).2)
    (ends : source.start + source.raw.length = high) :
    InOrder source.start high ((source.elements take shortens).1.flatMap stretches) := by
  -- The bound on the start is lost only where the source is used up, and then no element follows.
  fun_induction elements take shortens source with
  | case1 source blank =>
      change source.start ≤ high
      omega
  | case2 source visible taken others inductionHypothesis =>
      obtain ⟨stop, inOrder, bound, empty | ⟨goesOn, restEnds⟩⟩ :=
        takes source (Bool.eq_false_iff.mpr visible) ends
      · have none : others.1 = [] := by
          have blank : (take source).2.raw.isBlank = true := by
            rw [empty]
            rfl
          simp only [others, taken]
          rw [elements, dif_pos blank]
        rw [List.flatMap_cons, none, List.flatMap_nil, List.append_nil]
        exact inOrder.mono bound
      · rw [List.flatMap_cons]
        refine inOrder.append ?_
        rw [← goesOn]
        exact inductionHypothesis restEnds

/-- A source that ends at a place, or starts behind it and is empty. -/
def EndsAt (high : Nat) (source : Source) : Prop :=
  source.raw.length = high - source.start

theorem EndsAt.advance (ends : source.EndsAt high) (count : Nat) :
    (source.advance count).EndsAt high := by
  change (source.raw.drop count).length = high - (source.start + count)
  rw [EndsAt] at ends
  rw [List.length_drop]
  omega

theorem EndsAt.takeProperty (ends : source.EndsAt high) : source.takeProperty.2.EndsAt high := by
  have behindKey : source.takeKey.2.EndsAt high := by
    rcases source.takeKey_eq_or_advance with same | ⟨count, dropped⟩
    · rw [same]
      exact ends
    · rw [dropped]
      exact ends.advance count
  exact behindKey.advance _

/-- The value of a key without a colon is empty and stands behind the end. -/
theorem EndsAt.behind_of_mem_properties (ends : source.EndsAt high)
    {property : Option Key × Chunk} (member : property ∈ source.properties.1) {key : Key}
    (isKey : key ∈ property.1) (noColon : key.hasColon = false) :
    property.2.raw = [] ∧ high < property.2.start := by
  have keeps (part : Source) (holds : part.EndsAt high) : part.takeProperty.2.EndsAt high :=
    holds.takeProperty
  obtain ⟨part, holds, rfl⟩ := exists_take_of_mem_elements_of_keeps keeps ends member
  have taken : part.takeKey.1 = some key := isKey
  have present := (takesKey_of_eq_some taken).present
  rcases behind_takeKey taken with ⟨hasColon, _⟩ | ⟨_, empty, behind⟩
  · rw [noColon] at hasColon
    contradiction
  · have positive := List.length_pos_iff.mpr present
    rw [EndsAt] at holds
    refine ⟨?_, ?_⟩
    · change part.takeKey.2.raw.take _ = []
      rw [empty, List.take_nil]
    · change high < part.takeKey.2.start
      omega

end Source

/-! ## Containers -/

namespace Node

/-- The text of a container between two places in a text: from behind its opener to its closer, or
to its end if it is not closed. -/
def HasInterior (delimiter : Delimiter) (closed : Bool) (raw : Text) (start low high : Nat) :
    Prop :=
  ∃ blanks inner ending, Text.isBlank blanks = true ∧ Ending delimiter.closer closed ending ∧
    raw = blanks ++ delimiter.opener :: (inner ++ ending) ∧
      low = start + (blanks.length + 1) ∧ high = low + inner.length

/-- The places between which the elements of a container stand. -/
def Interior (closed : Bool) (low high : Nat) : Node → Prop
  | span .. => low = high
  | object raw start _ _ => HasInterior .brace closed raw start low high
  | array raw start _ _ => HasInterior .bracket closed raw start low high

/-- Between two places in a text stand the elements of a container, in order and without overlap,
but for the values of keys without a colon, which are empty and stand behind. -/
structure Encloses (text : Text) (low high : Nat) (node : Node) : Prop where
  stop_le : high ≤ text.length
  inOrder : InOrder low high (node.stretches Key.hasColon)
  all_iff : InOrder low high (node.stretches fun _ => true) ↔
    ∀ key ∈ node.keys, key.hasColon = true
  behind : ∀ property ∈ node.properties, ∀ key ∈ property.1, key.hasColon = false →
    property.2.raw = [] ∧ high < property.2.start

variable {node : Node} {text : Text} {low high : Nat}

theorem mem_keys_iff {key : Key} :
    key ∈ node.keys ↔ ∃ property ∈ node.properties, property.1 = some key := by
  cases node <;> simp [keys, properties]

/-- A value that counts stands among the elements. -/
theorem stretch_mem_stretches {counts : Key → Bool} {property : Option Key × Node}
    (member : property ∈ node.properties) (counted : ∀ key ∈ property.1, counts key = true) :
    property.2.stretch ∈ node.stretches counts := by
  cases node with
  | span => contradiction
  | array => contradiction
  | object raw start cursor properties =>
      refine List.mem_flatMap.mpr ⟨property, member, ?_⟩
      obtain ⟨_ | key, value⟩ := property
      · exact List.mem_singleton_self _
      · rw [propertyStretches, counted key rfl, if_pos rfl]
        exact List.mem_cons_of_mem _ (List.mem_singleton_self _)

theorem stretches_congr {counts others : Key → Bool}
    (same : ∀ key ∈ node.keys, counts key = others key) :
    node.stretches counts = node.stretches others := by
  cases node with
  | span => rfl
  | array => rfl
  | object raw start cursor properties =>
      refine List.flatMap_congr fun property member => ?_
      obtain ⟨_ | key, value⟩ := property
      · rfl
      · rw [propertyStretches, propertyStretches, same key (mem_keys_iff.mpr ⟨_, member, rfl⟩)]

theorem encloses_of_inOrder (stop_le : high ≤ text.length)
    (inOrder : InOrder low high (node.stretches Key.hasColon))
    (behind : ∀ property ∈ node.properties, ∀ key ∈ property.1, key.hasColon = false →
      property.2.raw = [] ∧ high < property.2.start) : node.Encloses text low high where
  stop_le := stop_le
  inOrder := inOrder
  behind := behind
  all_iff := by
    constructor
    · intro all key isKey
      obtain ⟨property, member, named⟩ := mem_keys_iff.mp isKey
      by_contra noColon
      have outside := behind property member key named (Bool.eq_false_iff.mpr noColon)
      have inside := all.of_mem (stretch_mem_stretches member fun _ _ => rfl)
      simp only [stretch] at inside
      omega
    · intro colons
      rw [stretches_congr colons] at inOrder
      exact inOrder

end Node

/-- A body stands in the text between the brackets of its container. -/
theorem Source.Lies.hasInterior {text : Text} {source body : Source} {delimiter : Delimiter}
    (lies : source.Lies text 0) (found : source.takeValue.1.body? = some (delimiter, body)) :
    Node.HasInterior delimiter source.scanValue.2.pending.isEmpty source.takeValue.1.raw
        source.takeValue.1.start body.start (body.start + body.raw.length) ∧
      body.start + body.raw.length ≤ text.length := by
  obtain ⟨blanks, ending, blank, start, ends, raw⟩ := exists_ending found
  refine ⟨⟨blanks, body.raw, ending, blank, ends, raw, start, rfl⟩, ?_⟩
  have present : source.takeValue.1.raw ≠ [] := by
    rw [raw]
    simp
  have stops : source.start + source.takeValue.1.raw.length ≤ text.length :=
    lies.takeValue.1.shows.stop_le present
  have length := congrArg List.length raw
  rw [List.length_append, List.length_cons, List.length_append] at length
  omega

/-- What is taken from a source encloses its elements. -/
theorem Source.Lies.encloses {text : Text} {source : Source} (lies : source.Lies text 0) :
    ∃ low high, source.takeValue.1.node.Interior source.scanValue.2.pending.isEmpty low high ∧
      source.takeValue.1.node.Encloses text low high := by
  have raw := source.takeValue.1.node_raw
  have start := source.takeValue.1.node_start
  cases looked : source.takeValue.1.node with
  | span raw start cursor =>
      exact ⟨0, 0, rfl, Node.encloses_of_inOrder (Nat.zero_le _) (Nat.le_refl 0)
        fun _ member => absurd member List.not_mem_nil⟩
  | object whole place cursor properties =>
      obtain ⟨body, found, _, rfl⟩ := Chunk.exists_of_node_eq_object looked
      rw [looked] at raw start
      cases raw
      cases start
      obtain ⟨interior, stop_le⟩ := lies.hasInterior found
      refine ⟨_, _, interior, Node.encloses_of_inOrder stop_le ?_ ?_⟩
      · rw [Node.stretches, List.flatMap_map]
        exact inOrder_elements (fun part visible ends => takes_property visible ends) rfl
      · intro property member key isKey noColon
        obtain ⟨taken, among, rfl⟩ := List.mem_map.mp member
        have ends : body.EndsAt (body.start + body.raw.length) :=
          (Nat.add_sub_cancel_left _ _).symm
        rw [Chunk.node_raw, Chunk.node_start]
        exact ends.behind_of_mem_properties among isKey noColon
  | array whole place cursor values =>
      obtain ⟨delimiter, body, found, notBrace, _, rfl⟩ := Chunk.exists_of_node_eq_array looked
      rcases lies.takeValue.1.delimiter found with rfl | rfl
      · contradiction
      · rw [looked] at raw start
        cases raw
        cases start
        obtain ⟨interior, stop_le⟩ := lies.hasInterior found
        refine ⟨_, _, interior, Node.encloses_of_inOrder stop_le ?_ ?_⟩
        · rw [Node.stretches, List.map_map, List.map_eq_flatMap]
          exact inOrder_elements (fun part _ ends => part.takes_value ends) rfl
        · exact fun _ member => absurd member List.not_mem_nil

/-! ## Trees -/

/-- A node that is in a tree the value of a key without a colon. -/
def Node.IsDangling (node whole : Node) : Prop :=
  ∃ outer, Node.Part whole outer ∧
    ∃ key, (some key, node) ∈ outer.properties ∧ key.hasColon = false

/-- Every element of a parsed text lies between the brackets of its container, or between the opener
and the end of one that is not closed, in order and without overlap, and every node lies in the
text; but for the values of keys without a colon, which are empty and lie behind their container. So
all elements lie inside their container if and only if all its keys have colons. -/
theorem encloses_parse (text : Text) (caret : Int) {node : Node}
    (part : Node.Part (parse text caret) node) :
    (node.stop ≤ text.length ∨ node.IsDangling (parse text caret)) ∧
      ∃ source : Source, source.Lies text 0 ∧ source.takeValue.1.node = node ∧
        ∃ low high, node.Interior source.scanValue.2.pending.isEmpty low high ∧
          node.Encloses text low high := by
  have whole : Source.Lies text 0 ⟨text, 0, if caret < 0 then none else some caret⟩ :=
    ⟨Nat.le_refl 0, Shows.whole text⟩
  have encloses {node : Node} (part : Node.Part (parse text caret) node) :
      ∃ source : Source, source.Lies text 0 ∧ source.takeValue.1.node = node ∧
        ∃ low high, node.Interior source.scanValue.2.pending.isEmpty low high ∧
          node.Encloses text low high := by
    obtain ⟨source, lies, rfl⟩ := (keeps_lies text).exists_source whole part
    exact ⟨source, lies, rfl, lies.encloses⟩
  refine ⟨?_, encloses part⟩
  cases part with
  | root =>
      have shows := whole.takeValue.1.shows
      rw [Node.stop, parse, Chunk.node_raw, Chunk.node_start]
      by_cases empty :
          (Source.takeValue ⟨text, 0, if caret < 0 then none else some caret⟩).1.raw = []
      · rw [empty]
        exact .inl (Nat.zero_le _)
      · exact .inl (shows.stop_le empty)
  | @property raw start cursor properties property outer member =>
      obtain ⟨_, _, _, low, high, _, enclosed⟩ := encloses outer
      have inside (counted : ∀ key ∈ property.1, key.hasColon = true) :
          property.2.stop ≤ text.length :=
        Nat.le_trans (enclosed.inOrder.of_mem (Node.stretch_mem_stretches member counted)).2.2
          enclosed.stop_le
      obtain ⟨_ | key, value⟩ := property
      · exact .inl (inside fun key isKey => absurd isKey (Option.not_mem_none key))
      · cases colon : key.hasColon with
        | true =>
            refine .inl (inside fun other same => ?_)
            rw [← Option.some.inj same]
            exact colon
        | false => exact .inr ⟨_, outer, key, member, colon⟩
  | @value raw start cursor values value outer member =>
      obtain ⟨_, _, _, low, high, _, enclosed⟩ := encloses outer
      have inside := enclosed.inOrder.of_mem (List.mem_map_of_mem member)
      exact .inl (Nat.le_trans inside.2.2 enclosed.stop_le)

/-- A selector that is not closed, of which only a key is written. -/
def openKey : Text :=
  ['{', 'a']

/-- The value of the key is placed behind the end of the text. -/
theorem parse_openKey : parse openKey (-1) =
    .object openKey 0 none
      [(some { raw := ['a'], start := 1, cursor := none, name := ['a'] }, .span [] 3 none)] := by
  have braces : (Source.takeValue ⟨openKey, 0, none⟩).1.body? =
      some (.brace, ⟨['a'], 1, none⟩) := rfl
  have properties : Source.properties ⟨['a'], 1, none⟩ =
      ([(some { raw := ['a'], start := 1, cursor := none, name := ['a'] },
        { raw := [], start := 3, cursor := none, frame := none })], none) := by
    have behind : Source.elements Source.takeProperty Source.takeProperty_raw_length_lt
        (Source.takeProperty ⟨['a'], 1, none⟩).2 = ([], none) := by
      have blank : (Source.takeProperty ⟨['a'], 1, none⟩).2.raw.isBlank = true := rfl
      rw [Source.elements, dif_pos blank]
      rfl
    rw [Source.properties, Source.elements, dif_neg (by decide)]
    simp only [behind]
    rfl
  have empty : (Chunk.mk [] 3 none none).node = .span [] 3 none :=
    Chunk.node_of_body?_eq_none rfl
  change (Source.takeValue ⟨openKey, 0, none⟩).1.node = _
  rw [Chunk.node_of_body?_eq_brace braces, properties, List.map_singleton, empty]
  rfl

theorem part_openKey : Node.Part (parse openKey (-1)) (.span [] 3 none) := by
  rw [parse_openKey]
  exact .property .root (List.mem_singleton_self _)

/-- The value is the one of a key without a colon, and the selector encloses what it can. -/
theorem encloses_parse_openKey :
    Node.IsDangling (.span [] 3 none) (parse openKey (-1)) ∧
      ∃ low high, (parse openKey (-1)).Encloses openKey low high := by
  obtain ⟨stops | dangling, _⟩ := encloses_parse openKey (-1) part_openKey
  · exact absurd stops (by decide)
  · obtain ⟨_, _, _, _, low, high, _, encloses⟩ := encloses_parse openKey (-1) .root
    exact ⟨dangling, low, high, encloses⟩

/-- A text of which a node lies behind the end. -/
theorem exists_part_behind_openKey :
    ∃ node, Node.Part (parse openKey (-1)) node ∧ openKey.length < node.start :=
  ⟨_, part_openKey, by decide⟩

end Typeahead.Selector
