import Typeahead.Proofs.Selector.Heading
import Typeahead.Proofs.Selector.Keys
import Typeahead.Proofs.Selector.Origin

/-!
# Every caret in a tree is the caret of the text

Reading moves the caret along with the start of what is left, so that each source has the caret of
the text if the caret stands in it, counted from its start. A source may start behind its end; then
it is empty and has lost the caret, and all that is read from it is empty, too.

The index of the element that holds the caret is found where reading on loses the caret. An element
holds the places from the one at which reading it began up to, but not including, the one at which
reading went on.
-/

namespace Typeahead.Selector

open Acceptance (nameOffset)

/-! ## Sources -/

/-- A body ends where its chunk ends or before. -/
theorem Chunk.openerLength_add_le {chunk : Chunk} {delimiter : Delimiter} {body : Source}
    (found : chunk.body? = some (delimiter, body)) :
    chunk.openerLength + body.raw.length ≤ chunk.raw.length := by
  obtain ⟨frame, _, _, _, afterOpener, raw, inner⟩ := chunk.exists_of_body? found
  have whole := congrArg List.length raw
  rw [List.length_append, List.length_cons] at whole
  have short : body.raw.length ≤ afterOpener.length := by
    split at inner
    · exact Nat.le_of_lt (beforeCloser?_length_lt inner)
    · exact Nat.le_of_eq (congrArg List.length inner)
  rw [openerLength]
  omega

/-- The caret of a body is that of its chunk, if it stands in the body. -/
theorem Chunk.caret_of_body? {chunk : Chunk} {delimiter : Delimiter} {body : Source}
    (found : chunk.body? = some (delimiter, body)) :
    body.caret = Caret.into (chunk.cursor.map Int.ofNat) chunk.openerLength
      (chunk.openerLength + body.raw.length) := by
  simp only [body?, Option.bind_eq_some_iff, Option.map_eq_some_iff, Prod.mk.injEq] at found
  obtain ⟨_, _, _, _, _, rfl⟩ := found
  rfl

/-- A source that ends at a place and has the caret of the text, counted from its start. -/
structure Source.Tracks (caret stop : Nat) (source : Source) : Prop where
  length : source.raw.length = stop - source.start
  caret : source.caret = Caret.into (some (caret : Int)) source.start stop

namespace Source.Tracks

variable {caret stop : Nat} {source : Source}

theorem start_lt (tracks : source.Tracks caret stop) (present : source.raw ≠ []) :
    source.start < stop := by
  have positive := List.length_pos_iff.mpr present
  rw [tracks.length] at positive
  omega

/-- The caret is there if and only if it stands in the source, whose ends belong to it. -/
theorem isSome_caret_iff (tracks : source.Tracks caret stop) :
    source.caret.isSome ↔ source.start ≤ caret ∧ caret ≤ stop := by
  rw [tracks.caret, Option.isSome_iff_exists]
  constructor
  · rintro ⟨offset, found⟩
    rw [Caret.into_eq_some_iff, Option.some.injEq] at found
    omega
  · rintro ⟨low, high⟩
    exact ⟨caret - source.start, by rw [Caret.into_eq_some_iff, Option.some.injEq]; omega⟩

/-- A window of a source knows the caret as a window of the text. -/
theorem within (tracks : source.Tracks caret stop) (present : source.raw ≠ []) {low high : Nat}
    (inside : high ≤ source.raw.length) :
    source.caret.within low high =
      Caret.within (some (caret : Int)) (source.start + low : Nat) (source.start + high : Nat) := by
  have before := tracks.start_lt present
  have length := tracks.length
  ext offset
  rw [tracks.caret, Caret.within_eq_some_iff, Caret.within_eq_some_iff, Caret.into_eq_some_iff,
    Option.some.injEq, Option.some.injEq]
  omega

/-- Reading on keeps the end, also when it goes beyond. -/
theorem advance (tracks : source.Tracks caret stop) (count : Nat) :
    (source.advance count).Tracks caret stop where
  length := by
    have length := tracks.length
    change (source.raw.drop count).length = stop - (source.start + count)
    rw [List.length_drop]
    omega
  caret := by
    have length := tracks.length
    rw [advance_caret, tracks.caret]
    ext offset
    rw [Caret.into_eq_some_iff, Caret.into_eq_some_iff, Caret.into_eq_some_iff, Option.some.injEq,
      Option.some.injEq]
    change _ ↔ (caret : Int) = (source.start + count : Nat) + offset ∧ 0 ≤ offset ∧
      ((source.start + count : Nat) : Int) + offset ≤ stop
    omega

theorem takeKey (tracks : source.Tracks caret stop) : source.takeKey.2.Tracks caret stop := by
  rcases source.takeKey_eq_or_advance with same | ⟨count, dropped⟩
  · rw [same]
    exact tracks
  · rw [dropped]
    exact tracks.advance count

theorem takeValue (tracks : source.Tracks caret stop) : source.takeValue.2.Tracks caret stop :=
  tracks.advance _

theorem takeProperty (tracks : source.Tracks caret stop) :
    source.takeProperty.2.Tracks caret stop :=
  tracks.takeKey.takeValue

/-- A value that is not empty knows the caret as a window of the text. -/
theorem cursor_takeValue (tracks : source.Tracks caret stop) (present : source.takeValue.1.raw ≠ []) :
    source.takeValue.1.cursor =
      Caret.within (some (caret : Int)) source.start
        (source.start + source.takeValue.1.raw.length : Nat) := by
  have sourcePresent : source.raw ≠ [] := by
    intro empty
    apply present
    change source.raw.take _ = []
    rw [empty, List.take_nil]
  have before := tracks.start_lt sourcePresent
  have length := tracks.length
  have taken : source.takeValue.1.raw.length = min (source.scanValue.1 + 1) source.raw.length :=
    List.length_take
  change source.caret.within 0 (source.scanValue.1 + 1 : Nat) = _
  ext offset
  rw [tracks.caret, Caret.within_eq_some_iff, Caret.within_eq_some_iff, Caret.into_eq_some_iff,
    Option.some.injEq, Option.some.injEq]
  omega

/-- The body of a value has the caret of the text if the caret stands in it. -/
theorem body (tracks : source.Tracks caret stop) {delimiter : Delimiter} {body : Source}
    (found : source.takeValue.1.body? = some (delimiter, body)) :
    body.Tracks caret (body.start + body.raw.length) := by
  have start : body.start = source.start + source.takeValue.1.openerLength := by
    obtain ⟨_, _, _, start, _⟩ := Chunk.exists_of_body? found
    exact start
  have inside := Chunk.openerLength_add_le found
  have present : source.takeValue.1.raw ≠ [] := by
    intro empty
    rw [empty, List.length_nil, Chunk.openerLength] at inside
    omega
  constructor
  · omega
  · have cursor : source.takeValue.1.cursor.map Int.ofNat =
        Caret.into (some (caret : Int)) source.start
          (source.start + source.takeValue.1.raw.length : Nat) :=
      congrArg _ (tracks.cursor_takeValue present)
    rw [Chunk.caret_of_body? found, cursor, Caret.into_into _ (Int.natCast_nonneg _) (by omega),
      start]
    congr 1
    omega

end Source.Tracks

theorem keeps_tracks (caret : Nat) : Keeps fun source => ∃ stop, source.Tracks caret stop where
  key := by
    rintro source ⟨stop, tracks⟩
    exact ⟨stop, tracks.takeKey⟩
  value := by
    rintro source ⟨stop, tracks⟩
    exact ⟨stop, tracks.takeValue⟩
  body := by
    rintro source delimiter body ⟨stop, tracks⟩ found
    exact ⟨_, tracks.body found⟩

/-! ## Indices -/

/-- The caret stands in the element with an index: at the place at which reading it began or behind,
and before the one at which reading went on, if it went on. The index of the source that is left at
the end of a trail is the number of elements. -/
def Holds (caret : Nat) (trail : List Source) (index : Nat) : Prop :=
  ∃ part, trail[index]? = some part ∧ part.start ≤ caret ∧
    ∀ next, trail[index + 1]? = some next → caret < next.start

theorem holds_zero_iff {caret : Nat} {part : Source} {trail : List Source} :
    Holds caret (part :: trail) 0 ↔
      part.start ≤ caret ∧ ∀ next, trail.head? = some next → caret < next.start := by
  rw [Holds, List.getElem?_cons_zero, List.head?_eq_getElem?]
  simp

theorem holds_succ_iff {caret index : Nat} {part : Source} {trail : List Source} :
    Holds caret (part :: trail) (index + 1) ↔ Holds caret trail index :=
  Iff.rfl

section

variable {α : Type} {take : Source → α × Source}
  {shortens : ∀ source, source.raw ≠ [] → (take source).2.raw.length < source.raw.length}
  {caret stop : Nat} {source : Source}

theorem index_eq_zero_iff {caret : Caret} {further : Option Nat} :
    (caret.map fun _ => further.elim 0 (· + 1)) = some 0 ↔ caret.isSome ∧ further = none := by
  cases caret <;> cases further <;> simp

theorem index_eq_succ_iff {caret : Caret} {further : Option Nat} {index : Nat} :
    (caret.map fun _ => further.elim 0 (· + 1)) = some (index + 1) ↔
      caret.isSome ∧ further = some index := by
  cases caret <;> cases further <;> simp

/-- A body with the caret of the text knows the index of the element that holds the caret. -/
theorem Source.Tracks.index_eq_some_iff
    (keeps : ∀ {part : Source}, part.Tracks caret stop → (take part).2.Tracks caret stop)
    (onwards : ∀ part : Source, part.start ≤ (take part).2.start)
    (tracks : source.Tracks caret stop) (index : Nat) :
    (source.elements take shortens).2 = some index ↔
      caret ≤ stop ∧ Holds caret (source.trail take shortens) index := by
  fun_induction elements take shortens source generalizing index with
  | case1 source blank =>
      rw [trail_of_blank take shortens blank]
      have present := tracks.isSome_caret_iff
      cases index with
      | zero =>
          have first : (source.caret.map fun _ => 0) = some 0 ↔ source.caret.isSome := by
            cases source.caret <;> simp
          rw [first, present, holds_zero_iff]
          simp [and_comm]
      | succ index => simp [Holds]
  | case2 source visible taken others inductionHypothesis =>
      have next := keeps tracks
      have behind := onwards source
      have present := tracks.isSome_caret_iff
      have further : others.2.isSome ↔ (take source).2.start ≤ caret ∧ caret ≤ stop := by
        rw [isSome_elements take shortens]
        exact next.isSome_caret_iff
      rw [trail_of_not_blank take shortens (Bool.eq_false_iff.mpr visible)]
      cases index with
      | zero =>
          rw [index_eq_zero_iff, present, holds_zero_iff, head?_trail,
            ← Option.not_isSome_iff_eq_none, further]
          simp only [Option.some.injEq, forall_eq']
          omega
      | succ index =>
          rw [index_eq_succ_iff, present, holds_succ_iff, ← inductionHypothesis next]
          constructor
          · exact And.right
          · intro found
            have later := further.mp (Option.isSome_of_eq_some found)
            exact ⟨⟨Nat.le_trans behind later.1, later.2⟩, found⟩

end

/-! ## Nodes -/

/-- A key has the caret of the text if the caret stands in its name, counted from the start of the
name. -/
structure Key.Relocates (text : Text) (caret : Nat) (key : Key) : Prop where
  name : (text.drop (key.start + nameOffset key.raw)).take key.name.length = key.name
  cursor : key.cursor = Caret.within (some (caret : Int)) (key.start + nameOffset key.raw : Nat)
    (key.start + nameOffset key.raw + key.name.length : Nat)

/-- A container has the index of the element that holds the caret of the text, if the caret stands in
the body. -/
structure Points (caret : Nat) (body : Source) (trail : List Source) (cursor : Option Nat) :
    Prop where
  eq_none_iff : cursor = none ↔ ¬(body.start ≤ caret ∧ caret ≤ body.start + body.raw.length)
  eq_some_iff : ∀ index, cursor = some index ↔
    (body.start ≤ caret ∧ caret ≤ body.start + body.raw.length) ∧ Holds caret trail index

/-- The body in a text of a node that was taken from a source there. -/
def Node.HasBody (text : Text) (node : Node) (delimiter : Delimiter) (body : Source) : Prop :=
  ∃ source : Source, source.Lies text 0 ∧ source.takeValue.1.node = node ∧
    source.takeValue.1.body? = some (delimiter, body)

/-- The cursor of a node is the caret of the text, relocated: in a span that is not empty as an
offset, and in a container as the index of one of the elements that were read along the trail through
its body. -/
def Node.Relocates (text : Text) (caret : Nat) : Node → Prop
  | span raw start cursor =>
      raw ≠ [] → cursor = Caret.within (some (caret : Int)) start (start + raw.length : Nat)
  | object raw start cursor properties =>
      ∃ body, HasBody text (object raw start cursor properties) .brace body ∧
        properties = (body.trail _ Source.takeProperty_raw_length_lt).dropLast.map (fun part =>
          (part.takeProperty.1.1, part.takeProperty.1.2.node)) ∧
        Points caret body (body.trail _ Source.takeProperty_raw_length_lt) cursor ∧
        ∀ property ∈ properties, ∀ key ∈ property.1, key.Relocates text caret
  | array raw start cursor values =>
      ∃ body, HasBody text (array raw start cursor values) .bracket body ∧
        values = (body.trail _ Source.takeValue_raw_length_lt).dropLast.map (fun part =>
          part.takeValue.1.node) ∧
        Points caret body (body.trail _ Source.takeValue_raw_length_lt) cursor

theorem Source.TakesKey.relocates {text : Text} {source : Source} {key : Key} {caret stop : Nat}
    (takes : source.TakesKey key) (tracks : source.Tracks caret stop) (lies : source.Lies text 0)
    (taken : source.takeKey.1 = some key) : key.Relocates text caret where
  name := by
    have shows := ((lies.takeKey.1 key taken).shows.drop (nameOffset key.raw)).take key.name.length
    rw [takes.name] at shows
    exact shows.take_drop_eq
  cursor := by
    have fits : nameOffset key.raw + key.name.length ≤ source.raw.length := by
      have whole := congrArg List.length takes.raw
      have inside := takes.inside
      rw [List.length_append] at whole
      omega
    rw [takes.cursor, tracks.within takes.present fits, takes.start, Nat.add_assoc]

theorem Source.Tracks.points {α : Type} {take : Source → α × Source}
    {shortens : ∀ source, source.raw ≠ [] → (take source).2.raw.length < source.raw.length}
    {caret : Nat} {body : Source}
    (keeps : ∀ {stop : Nat} {part : Source}, part.Tracks caret stop →
      (take part).2.Tracks caret stop)
    (onwards : ∀ part : Source, part.start ≤ (take part).2.start)
    (tracks : body.Tracks caret (body.start + body.raw.length)) :
    Points caret body (body.trail take shortens) (body.elements take shortens).2 := by
  have present : (body.elements take shortens).2.isSome ↔
      body.start ≤ caret ∧ caret ≤ body.start + body.raw.length := by
    rw [isSome_elements take shortens, tracks.isSome_caret_iff]
  constructor
  · rw [← present, Option.not_isSome_iff_eq_none]
  · intro index
    have found : (body.elements take shortens).2 = some index ↔ _ :=
      tracks.index_eq_some_iff keeps onwards index
    constructor
    · intro cursor
      exact ⟨present.mp (Option.isSome_of_eq_some cursor), (found.mp cursor).2⟩
    · rintro ⟨within, holds⟩
      exact found.mpr ⟨within.2, holds⟩

theorem Source.start_le_takeKey (source : Source) : source.start ≤ source.takeKey.2.start := by
  rcases source.takeKey_eq_or_advance with same | ⟨count, dropped⟩
  · exact Nat.le_of_eq (congrArg Source.start same.symm)
  · rw [dropped]
    exact Nat.le_add_right _ _

theorem Chunk.eq_of_node_eq_span {chunk : Chunk} {raw : Text} {start : Nat} {cursor : Option Nat}
    (looked : chunk.node = .span raw start cursor) :
    chunk.raw = raw ∧ chunk.start = start ∧ chunk.cursor = cursor := by
  rw [Chunk.node] at looked
  split at looked
  · cases looked
    exact ⟨rfl, rfl, rfl⟩
  · contradiction
  · contradiction

/-- A node that was taken from a source with the caret of the text has it relocated. -/
theorem Source.Tracks.relocates {text : Text} {source : Source} {caret stop : Nat}
    (tracks : source.Tracks caret stop) (lies : source.Lies text 0) :
    source.takeValue.1.node.Relocates text caret := by
  cases looked : source.takeValue.1.node with
  | span raw start cursor =>
      obtain ⟨rfl, rfl, rfl⟩ := Chunk.eq_of_node_eq_span looked
      exact tracks.cursor_takeValue
  | object raw start cursor properties =>
      obtain ⟨body, found, rfl, rfl⟩ := Chunk.exists_of_node_eq_object looked
      have bodyTracks := tracks.body found
      have bodyLies := (keeps_lies text).body lies found
      refine ⟨body, ⟨source, lies, looked, found⟩, ?_, ?_, ?_⟩
      · rw [properties, elements_eq_map_trail, List.map_map]
        rfl
      · exact bodyTracks.points takeProperty fun part =>
          Nat.le_trans part.start_le_takeKey (Nat.le_add_right _ _)
      · intro property member key isKey
        obtain ⟨taken, among, rfl⟩ := List.mem_map.mp member
        have keeps (part : Source)
            (holds : part.Tracks caret (body.start + body.raw.length) ∧ part.Lies text 0) :
            part.takeProperty.2.Tracks caret (body.start + body.raw.length) ∧
              part.takeProperty.2.Lies text 0 :=
          ⟨holds.1.takeProperty, (keeps_lies text).property holds.2⟩
        obtain ⟨part, ⟨partTracks, partLies⟩, rfl⟩ :=
          exists_take_of_mem_elements_of_keeps keeps ⟨bodyTracks, bodyLies⟩ among
        exact (takesKey_of_eq_some isKey).relocates partTracks partLies isKey
  | array raw start cursor values =>
      obtain ⟨delimiter, body, found, notBrace, rfl, rfl⟩ := Chunk.exists_of_node_eq_array looked
      rcases lies.takeValue.1.delimiter found with rfl | rfl
      · contradiction
      · refine ⟨body, ⟨source, lies, looked, found⟩, ?_, ?_⟩
        · rw [values, elements_eq_map_trail, List.map_map]
          rfl
        · exact (tracks.body found).points takeValue fun part => Nat.le_add_right _ _

/-- A text is parsed from a source that tracks the caret to the end of the text. -/
theorem tracks_of_inside {text : Text} {caret : Nat} (inside : caret ≤ text.length) :
    Source.Tracks caret text.length ⟨text, 0, some (caret : Int)⟩ ∧
      parse text caret = (Source.takeValue ⟨text, 0, some (caret : Int)⟩).1.node := by
  refine ⟨⟨rfl, ?_⟩, ?_⟩
  · symm
    change Caret.into (some (caret : Int)) (0 : Nat) text.length = some (caret : Int)
    rw [Caret.into_eq_some_iff, Option.some.injEq]
    omega
  · rw [parse, if_neg (Int.not_lt.mpr (Int.natCast_nonneg caret))]

/-- The cursor of every node of a parsed text is the caret of the text, relocated. -/
theorem relocates_parse {text : Text} {caret : Nat} (inside : caret ≤ text.length) {node : Node}
    (part : Node.Part (parse text caret) node) : node.Relocates text caret := by
  obtain ⟨first, parsed⟩ := tracks_of_inside inside
  have whole : Source.Lies text 0 ⟨text, 0, some (caret : Int)⟩ :=
    ⟨Nat.le_refl 0, Shows.whole text⟩
  rw [parsed] at part
  obtain ⟨source, ⟨lies, stop, tracks⟩, rfl⟩ :=
    ((keeps_lies text).and (keeps_tracks caret)).exists_source ⟨whole, text.length, first⟩ part
  exact tracks.relocates lies

/-- A selector with an array that is not closed. -/
def openArray : Text :=
  ['{', 'a', ':', '[', '1', ',', '2']

/-- The caret stands behind the first value of the array, in front of its comma. -/
theorem relocates_parse_openArray :
    5 ≤ openArray.length ∧ Node.Part (parse openArray (5 : Nat)) (parse openArray (5 : Nat)) ∧
      (parse openArray (5 : Nat)).Relocates openArray 5 :=
  ⟨by decide, .root, relocates_parse (by decide) .root⟩

end Typeahead.Selector
