import Mathlib.Data.List.Forall2
import Typeahead.Proofs.Selector.Keys
import Typeahead.Proofs.Selector.Origin

/-!
# Reading loses and duplicates no character

Every node shows the text at its place. The text of an object or array consists of an opener part,
the texts of its elements in their order, a blank rest and a closer part, with nothing between them.
The closer part is empty if and only if the scan that cut the container left a delimiter open.
-/

namespace Typeahead.Selector

/-! ## The text of a container -/

/-- What a property takes up: its key, or blanks and a colon that are dropped, and its value. -/
inductive PropertyPiece : Option Key × Node → Text → Prop
  | named (key : Key) (value : Node) : PropertyPiece (some key, value) (key.raw ++ value.raw)
  | unnamed {blanks : Text} (blank : Text.isBlank blanks = true) (value : Node) :
      PropertyPiece (none, value) (blanks ++ ':' :: value.raw)

/-- The closer part of a container. -/
inductive Ending (closer : Char) : Bool → Text → Prop
  | unclosed : Ending closer false []
  | closed {blanks comma : Text} :
      Text.isBlank blanks = true → (comma = [] ∨ comma = [',']) →
        Ending closer true (closer :: (blanks ++ comma))

/-- The text of a container that consists of an opener part, pieces, a blank rest and a closer
part. -/
def Composed (delimiter : Delimiter) (closed : Bool) (pieces : List Text) (raw : Text) : Prop :=
  ∃ blanks rest ending, Text.isBlank blanks = true ∧ Text.isBlank rest = true ∧
    Ending delimiter.closer closed ending ∧
      raw = blanks ++ delimiter.opener :: (pieces.flatten ++ rest ++ ending)

/-- The text of a node is composed of the texts of its elements. -/
def Node.Accounts (closed : Bool) : Node → Prop
  | span .. => True
  | object raw _ _ properties =>
      ∃ pieces, List.Forall₂ PropertyPiece properties pieces ∧ Composed .brace closed pieces raw
  | array raw _ _ values => Composed .bracket closed (values.map Node.raw) raw

/-- The keys of an object. -/
def Node.keys : Node → List Key
  | object _ _ _ properties => properties.filterMap Prod.fst
  | span .. | array .. => []

/-! ## Elements -/

/-- The elements of a body take up the body in their order, up to a blank rest. -/
theorem Source.exists_pieces {α : Type} (Piece : α → Text → Prop) {take : Source → α × Source}
    {shortens : ∀ source, source.raw ≠ [] → (take source).2.raw.length < source.raw.length}
    (takes : ∀ part : Source, part.raw.isBlank = false →
      ∃ piece, Piece (take part).1 piece ∧ part.raw = piece ++ (take part).2.raw)
    (source : Source) :
    ∃ pieces rest, List.Forall₂ Piece (source.elements take shortens).1 pieces ∧
      Text.isBlank rest = true ∧ source.raw = pieces.flatten ++ rest := by
  fun_induction elements take shortens source with
  | case1 source blank => exact ⟨[], source.raw, .nil, blank, rfl⟩
  | case2 source visible taken others inductionHypothesis =>
      obtain ⟨pieces, rest, among, blank, whole⟩ := inductionHypothesis
      obtain ⟨piece, isPiece, split⟩ := takes source (Bool.eq_false_iff.mpr visible)
      refine ⟨piece :: pieces, rest, .cons isPiece among, blank, ?_⟩
      rw [split, List.flatten_cons, List.append_assoc, ← whole]

theorem Source.takeValue_raw_append (source : Source) :
    source.raw = source.takeValue.1.raw ++ source.takeValue.2.raw :=
  (List.take_append_drop _ _).symm

/-- A property that is taken from a text that is not blank takes up the text to its end. -/
theorem Source.exists_propertyPiece {source : Source} (visible : source.raw.isBlank = false) :
    ∃ piece, PropertyPiece (source.takeProperty.1.1, source.takeProperty.1.2.node) piece ∧
      source.raw = piece ++ source.takeProperty.2.raw := by
  have value := source.takeKey.2.takeValue_raw_append
  change ∃ piece, PropertyPiece (source.takeKey.1, source.takeKey.2.takeValue.1.node) piece ∧
    source.raw = piece ++ source.takeKey.2.takeValue.2.raw
  cases taken : source.takeKey.1 with
  | none =>
      obtain ⟨blanks, blank, whole⟩ := exists_of_takeKey_eq_none visible taken
      refine ⟨_, .unnamed blank _, ?_⟩
      rw [whole, Chunk.node_raw, List.append_assoc, List.cons_append, ← value]
  | some key =>
      have takes := takesKey_of_eq_some taken
      refine ⟨_, .named key _, ?_⟩
      rw [← takes.raw, Chunk.node_raw, List.append_assoc, ← value]

theorem Source.exists_propertyPieces (body : Source) :
    ∃ pieces rest,
      List.Forall₂ (fun property => PropertyPiece (property.1, property.2.node)) body.properties.1
        pieces ∧ Text.isBlank rest = true ∧ body.raw = pieces.flatten ++ rest := by
  apply exists_pieces fun property : Option Key × Chunk =>
    PropertyPiece (property.1, property.2.node)
  intro part visible
  exact exists_propertyPiece visible

theorem Source.exists_valuePieces (body : Source) :
    ∃ rest, Text.isBlank rest = true ∧
      body.raw = ((body.values.1.map Chunk.node).map Node.raw).flatten ++ rest := by
  have takes (part : Source) (_ : part.raw.isBlank = false) :
      ∃ piece, part.takeValue.1.node.raw = piece ∧ part.raw = piece ++ part.takeValue.2.raw :=
    ⟨_, rfl, by rw [Chunk.node_raw, ← takeValue_raw_append]⟩
  obtain ⟨pieces, rest, among, blank, whole⟩ :=
    exists_pieces (fun value : Chunk => (value.node.raw = ·)) takes body
  have same : body.values.1.map (fun value => value.node.raw) = pieces :=
    List.forall₂_eq_eq_eq ▸ List.forall₂_map_left_iff.mpr among
  rw [List.map_map]
  exact ⟨rest, blank, same ▸ whole⟩

/-! ## Containers -/

theorem Scan.closed_of_frame? {scan : Scan} {frame : Frame} (found : scan.frame? = some frame) :
    frame.closed = scan.pending.isEmpty := by
  unfold frame? at found
  split at found
  · rw [← Option.some.inj found]
  · rw [← Option.some.inj found]
  · contradiction

/-- A body stands between an opener part and a closer part. -/
theorem Source.exists_ending {source body : Source} {delimiter : Delimiter}
    (found : source.takeValue.1.body? = some (delimiter, body)) :
    ∃ blanks ending, Text.isBlank blanks = true ∧ body.start = source.start + (blanks.length + 1) ∧
      Ending delimiter.closer source.scanValue.2.pending.isEmpty ending ∧
        source.takeValue.1.raw = blanks ++ delimiter.opener :: (body.raw ++ ending) := by
  obtain ⟨frame, framed, rfl, start, afterOpener, raw, inner⟩ := Chunk.exists_of_body? found
  have closed : frame.closed = source.scanValue.2.pending.isEmpty := Scan.closed_of_frame? framed
  have blank : Text.isBlank (Text.leadingBlanks source.takeValue.1.raw) = true := by
    rw [Text.isBlank, Text.leadingBlanks, List.all_takeWhile]
  rw [← closed]
  split at inner
  · rename_i isClosed
    obtain ⟨blanks, comma, behind, isComma, rfl⟩ := exists_ending_of_beforeCloser? inner
    rw [isClosed]
    exact ⟨_, _, blank, start, .closed behind isComma, raw⟩
  · rename_i isOpen
    rw [Bool.not_eq_true] at isOpen
    rw [isOpen]
    refine ⟨_, _, blank, start, .unclosed, ?_⟩
    rw [List.append_nil, inner]
    exact raw

/-- The text around a body whose elements take up the body is composed of their texts. -/
theorem Source.composed {source body : Source} {delimiter : Delimiter} {pieces : List Text}
    {rest : Text} (found : source.takeValue.1.body? = some (delimiter, body))
    (blank : Text.isBlank rest = true) (whole : body.raw = pieces.flatten ++ rest) :
    Composed delimiter source.scanValue.2.pending.isEmpty pieces source.takeValue.1.raw := by
  obtain ⟨blanks, ending, before, _, behind, raw⟩ := exists_ending found
  exact ⟨blanks, rest, ending, before, blank, behind, by rw [raw, whole]⟩

/-- The text of a node that was taken from a source is composed of the texts of its elements. -/
theorem Source.accounts {text : Text} {source : Source} (lies : source.Lies text 0) :
    source.takeValue.1.node.Accounts source.scanValue.2.pending.isEmpty := by
  have raw := source.takeValue.1.node_raw
  cases looked : source.takeValue.1.node with
  | span => trivial
  | object whole start cursor properties =>
      obtain ⟨body, found, _, rfl⟩ := Chunk.exists_of_node_eq_object looked
      obtain ⟨pieces, rest, among, blank, split⟩ := exists_propertyPieces body
      rw [looked] at raw
      cases raw
      exact ⟨pieces, List.forall₂_map_left_iff.mpr among, composed found blank split⟩
  | array whole start cursor values =>
      obtain ⟨delimiter, body, found, notBrace, _, rfl⟩ := Chunk.exists_of_node_eq_array looked
      obtain ⟨rest, blank, split⟩ := exists_valuePieces body
      rcases lies.takeValue.1.delimiter found with rfl | rfl
      · contradiction
      · rw [looked] at raw
        cases raw
        exact composed found blank split

theorem Source.lies_of_mem_keys {text : Text} {source : Source} (lies : source.Lies text 0)
    {key : Key} (member : key ∈ source.takeValue.1.node.keys) :
    key.Lies text (source.start + 1) := by
  cases looked : source.takeValue.1.node with
  | span => rw [looked] at member; contradiction
  | array => rw [looked] at member; contradiction
  | object raw start cursor properties =>
      obtain ⟨body, found, _, rfl⟩ := Chunk.exists_of_node_eq_object looked
      rw [looked, Node.keys, List.filterMap_map] at member
      obtain ⟨property, among, isKey⟩ := List.mem_filterMap.mp member
      exact ((lies.takeValue.1.body found).of_mem_properties among).1 key isKey

/-- Parsing loses and duplicates no character: every node and every key shows the text at its place,
and the text of every object and array is composed of the texts of its elements. -/
theorem accounts_parse (text : Text) (caret : Int) {node : Node}
    (part : Node.Part (parse text caret) node) :
    (text.drop node.start).take node.raw.length = node.raw ∧
      (∀ key ∈ node.keys, (text.drop key.start).take key.raw.length = key.raw) ∧
        ∃ source : Source, source.Lies text 0 ∧ source.takeValue.1.node = node ∧
          node.Accounts source.scanValue.2.pending.isEmpty := by
  have whole : Source.Lies text 0 ⟨text, 0, if caret < 0 then none else some caret⟩ :=
    ⟨Nat.le_refl 0, Shows.whole text⟩
  obtain ⟨source, lies, rfl⟩ := (keeps_lies text).exists_source whole part
  refine ⟨?_, ?_, source, lies, rfl, Source.accounts lies⟩
  · rw [Chunk.node_raw, Chunk.node_start]
    exact lies.takeValue.1.shows.take_drop_eq
  · intro key member
    exact (Source.lies_of_mem_keys lies member).shows.take_drop_eq

/-- A selector of which nothing is closed, with a value behind a colon without a key. -/
def nothingClosed : Text :=
  ['{', ' ', ':', '[', ',', '1']

theorem accounts_parse_nothingClosed :
    Node.Part (parse nothingClosed 2) (parse nothingClosed 2) ∧
      (nothingClosed.drop (parse nothingClosed 2).start).take (parse nothingClosed 2).raw.length =
        (parse nothingClosed 2).raw ∧
      ∃ source : Source, source.takeValue.1.node = parse nothingClosed 2 ∧
        (parse nothingClosed 2).Accounts source.scanValue.2.pending.isEmpty := by
  obtain ⟨shown, _, source, _, reads, accounts⟩ := accounts_parse nothingClosed 2 .root
  exact ⟨.root, shown, source, reads, accounts⟩

end Typeahead.Selector
