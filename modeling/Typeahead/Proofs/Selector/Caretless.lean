import Typeahead.Proofs.Selector.Origin

/-!
# Reading without a caret

The caret decides whether a scan is repeated and from where it recovers. Where every value closes
its delimiters, at every depth, no scan is repeated. Reading then only carries the caret along: the tree
of a text with a caret and the tree without one differ in nothing but their carets.
-/

namespace Typeahead.Selector

/-! ## Dropping carets -/

/-- The source without its caret. -/
def Source.withoutCaret (source : Source) : Source :=
  { source with caret := none }

/-- The key without its caret. -/
def Key.withoutCaret (key : Key) : Key :=
  { key with cursor := none }

/-- The chunk without its caret. -/
def Chunk.withoutCaret (chunk : Chunk) : Chunk :=
  { chunk with cursor := none }

mutual

/-- The tree without its carets. -/
def Node.withoutCaret : Node → Node
  | .span raw start _ => .span raw start none
  | .object raw start _ properties => .object raw start none (propertiesWithoutCaret properties)
  | .array raw start _ values => .array raw start none (valuesWithoutCaret values)

/-- Properties without their carets. -/
def propertiesWithoutCaret : List (Option Key × Node) → List (Option Key × Node)
  | [] => []
  | (key?, value) :: more =>
      (key?.map Key.withoutCaret, value.withoutCaret) :: propertiesWithoutCaret more

/-- Values without their carets. -/
def valuesWithoutCaret : List Node → List Node
  | [] => []
  | value :: more => value.withoutCaret :: valuesWithoutCaret more

end

theorem propertiesWithoutCaret_eq_map (properties : List (Option Key × Node)) :
    propertiesWithoutCaret properties =
      properties.map fun property =>
        (property.1.map Key.withoutCaret, property.2.withoutCaret) := by
  induction properties with
  | nil => rfl
  | cons property more inductionHypothesis =>
      rw [propertiesWithoutCaret, List.map_cons, inductionHypothesis]

theorem valuesWithoutCaret_eq_map (values : List Node) :
    valuesWithoutCaret values = values.map Node.withoutCaret := by
  induction values with
  | nil => rfl
  | cons value more inductionHypothesis =>
      rw [valuesWithoutCaret, List.map_cons, inductionHypothesis]

/-! ## Values that close -/

/-- Taking the value at a source leaves no delimiter open, neither at the end of the value itself
nor at the end of any value that is taken from its body, at every depth. -/
inductive Source.Closes : Source → Prop
  | intro {source : Source} (closed : source.scanValue.2.pending = [])
      (properties : ∀ body, source.takeValue.1.body? = some (.brace, body) →
        ∀ part ∈ (body.trail takeProperty takeProperty_raw_length_lt).dropLast,
          Closes part.takeKey.2)
      (values : ∀ body, source.takeValue.1.body? = some (.bracket, body) →
        ∀ part ∈ (body.trail takeValue takeValue_raw_length_lt).dropLast, Closes part) :
      Closes source

namespace Source

/-- Taking a key does not look at the caret. -/
theorem takeKey_withoutCaret (source : Source) :
    source.withoutCaret.takeKey =
      (source.takeKey.1.map Key.withoutCaret, source.takeKey.2.withoutCaret) := by
  rcases source with ⟨raw, start, caret⟩
  change Source.takeKey ⟨raw, start, none⟩ = _
  unfold takeKey
  dsimp only
  split
  · split <;> rfl
  · rfl

theorem scanValue_withoutCaret (source : Source) :
    source.withoutCaret.scanValue = source.scanFrom none := by
  unfold scanValue
  exact if_pos (Bool.or_true _)

/-- Taking a value looks at the caret only if the plain scan leaves a delimiter open. -/
theorem takeValue_withoutCaret {source : Source}
    (closed : source.withoutCaret.scanValue.2.pending = []) :
    source.withoutCaret.takeValue =
      (source.takeValue.1.withoutCaret, source.takeValue.2.withoutCaret) := by
  rw [scanValue_withoutCaret] at closed
  have plain : source.scanValue = source.scanFrom none := by
    unfold scanValue
    exact if_pos (by rw [closed]; rfl)
  rw [takeValue, takeValue, scanValue_withoutCaret, plain]
  rfl

/-- Elements that are taken in the same way with a caret and without one. -/
theorem map_elements_withoutCaret {α β : Type} {take : Source → α × Source}
    {shortens : ∀ source, source.raw ≠ [] → (take source).2.raw.length < source.raw.length}
    {image imageWithout : α → β} {source : Source}
    (same : ∀ part : Source,
      part.withoutCaret ∈ (source.withoutCaret.trail take shortens).dropLast →
        imageWithout (take part.withoutCaret).1 = image (take part).1 ∧
          (take part.withoutCaret).2 = (take part).2.withoutCaret) :
    (source.withoutCaret.elements take shortens).1.map imageWithout =
      (source.elements take shortens).1.map image := by
  fun_induction elements take shortens source with
  | case1 source blank =>
      have same : source.withoutCaret.raw.isBlank = true := blank
      rw [elements, dif_pos same]
      rfl
  | case2 source visible taken others inductionHypothesis =>
      have shown : source.withoutCaret.raw.isBlank = false := Bool.eq_false_iff.mpr visible
      rw [dropLast_trail_of_not_blank take shortens shown] at same
      obtain ⟨element, rest⟩ := same source List.mem_cons_self
      rw [rest] at same
      rw [elements, dif_neg (by rw [shown]; exact Bool.false_ne_true)]
      simp only [List.map_cons]
      rw [element, rest, inductionHypothesis fun part member =>
        same part (List.mem_cons_of_mem _ member)]

end Source

theorem Chunk.body?_withoutCaret (chunk : Chunk) :
    chunk.withoutCaret.body? =
      chunk.body?.map fun (delimiter, body) => (delimiter, body.withoutCaret) := by
  rw [body?, body?, Option.map_bind]
  change chunk.frame.bind _ = chunk.frame.bind _
  congr 1
  funext frame
  rw [Function.comp_apply, Option.map_map]
  rfl

namespace Source

theorem Closes.closed {source : Source} (closes : source.Closes) :
    source.scanValue.2.pending = [] := by
  cases closes
  assumption

/-- A value without a body closes if its own delimiters are closed. -/
theorem closes_of_body?_eq_none {source : Source} (closed : source.scanValue.2.pending = [])
    (absent : source.takeValue.1.body? = none) : source.Closes := by
  refine .intro closed (fun body found => ?_) (fun body found => ?_) <;>
  · rw [absent] at found
    contradiction

/-- What is left behind a property whose value closes. -/
theorem Closes.takeProperty_withoutCaret {source : Source}
    (closes : source.withoutCaret.takeKey.2.Closes) :
    source.withoutCaret.takeProperty.2 = source.takeProperty.2.withoutCaret := by
  have behindKey : source.withoutCaret.takeKey.2 = source.takeKey.2.withoutCaret :=
    congrArg Prod.snd source.takeKey_withoutCaret
  change source.withoutCaret.takeKey.2.takeValue.2 = source.takeKey.2.takeValue.2.withoutCaret
  rw [behindKey] at closes ⊢
  rw [takeValue_withoutCaret closes.closed]

/-- A body of a value stands in braces or in square brackets. -/
theorem delimiter_of_body? {source body : Source} {delimiter : Delimiter}
    (found : source.takeValue.1.body? = some (delimiter, body)) :
    delimiter = .brace ∨ delimiter = .bracket := by
  obtain ⟨frame, framed, rfl, _⟩ := Chunk.exists_of_body? found
  exact Scan.frame?_delimiter framed

/-- Taking a value that closes gives the same tree with and without the caret, but for the
carets. -/
theorem Closes.node_withoutCaret {plain : Source} (closes : plain.Closes) {source : Source}
    (same : source.withoutCaret = plain) :
    plain.takeValue.1.node = source.takeValue.1.node.withoutCaret := by
  induction closes generalizing source with
  | intro closed properties values fromProperties fromValues =>
      subst same
      have taken : source.withoutCaret.takeValue.1 = source.takeValue.1.withoutCaret :=
        congrArg Prod.fst (takeValue_withoutCaret closed)
      have bodies := Chunk.body?_withoutCaret source.takeValue.1
      rw [taken] at properties values fromProperties fromValues ⊢
      cases found : source.takeValue.1.body? with
      | none =>
          rw [found, Option.map_none] at bodies
          rw [Chunk.node_of_body?_eq_none found, Chunk.node_of_body?_eq_none bodies]
          rfl
      | some framed =>
          obtain ⟨delimiter, body⟩ := framed
          rw [found, Option.map_some] at bodies
          rcases delimiter_of_body? found with rfl | rfl
          · have looked : (body.withoutCaret.properties.1.map fun property =>
                (property.1, property.2.node)) =
                  body.properties.1.map fun property =>
                    (property.1.map Key.withoutCaret, property.2.node.withoutCaret) := by
              refine map_elements_withoutCaret fun part member => ?_
              have taken := part.takeKey_withoutCaret
              have key : part.withoutCaret.takeKey.1 = part.takeKey.1.map Key.withoutCaret :=
                congrArg Prod.fst taken
              have node := fromProperties _ bodies _ member (congrArg Prod.snd taken).symm
              exact ⟨Prod.ext key node,
                (properties _ bodies _ member).takeProperty_withoutCaret⟩
            rw [Chunk.node_of_body?_eq_brace found, Chunk.node_of_body?_eq_brace bodies, looked,
              Node.withoutCaret, propertiesWithoutCaret_eq_map, List.map_map]
            exact congrArg (Node.object _ _ · _) (index_eq_none _ _ rfl)
          · have looked : body.withoutCaret.values.1.map Chunk.node =
                body.values.1.map fun value => value.node.withoutCaret := by
              refine map_elements_withoutCaret fun part member => ?_
              have rest := congrArg Prod.snd
                (takeValue_withoutCaret (values _ bodies _ member).closed)
              exact ⟨fromValues _ bodies _ member rfl, rest⟩
            rw [Chunk.node_of_body?_eq_bracket found, Chunk.node_of_body?_eq_bracket bodies, looked,
              Node.withoutCaret, valuesWithoutCaret_eq_map, List.map_map]
            exact congrArg (Node.array _ _ · _) (index_eq_none _ _ rfl)

end Source

/-- Where every value closes its delimiters without a caret, every caret leaves the tree as it is,
but for the carets in it. -/
theorem withoutCaret_parse {text : Text} (closes : Source.Closes ⟨text, 0, none⟩) (caret : Int) :
    (parse text caret).withoutCaret = (parse text (-1)).withoutCaret := by
  have plain (caret : Int) :
      (Source.takeValue ⟨text, 0, none⟩).1.node = (parse text caret).withoutCaret :=
    closes.node_withoutCaret rfl
  rw [← plain caret, ← plain (-1)]

/-- A selector with text behind a quoted name, closers that close nothing, and a key without a
colon. -/
def strayClosers : Text :=
  "\x7b'a'x: [\x7d, 2)], b\x7d".toList

/-- The values in the array are a brace and a number with a parenthesis. -/
theorem closes_strayArray : Source.Closes ⟨" [\x7d, 2)], b".toList, 6, none⟩ := by
  have array : (Source.takeValue ⟨" [\x7d, 2)], b".toList, 6, none⟩).1.body? =
      some (.bracket, ⟨"\x7d, 2)".toList, 8, none⟩) := rfl
  refine .intro rfl (fun body found => ?_) (fun body found => ?_) <;> rw [array] at found <;>
    cases found
  rw [Source.dropLast_trail_of_not_blank _ _ rfl, Source.dropLast_trail_of_not_blank _ _ rfl,
    Source.trail_of_blank _ _ rfl]
  simp only [List.dropLast_singleton, List.forall_mem_cons, List.not_mem_nil, false_imp_iff,
    implies_true, and_true]
  exact ⟨Source.closes_of_body?_eq_none rfl rfl, Source.closes_of_body?_eq_none rfl rfl⟩

theorem closes_strayClosers : Source.Closes ⟨strayClosers, 0, none⟩ := by
  have selector : (Source.takeValue ⟨strayClosers, 0, none⟩).1.body? =
      some (.brace, ⟨"'a'x: [\x7d, 2)], b".toList, 1, none⟩) := rfl
  refine .intro rfl (fun body found => ?_) (fun body found => ?_) <;> rw [selector] at found <;>
    cases found
  rw [Source.dropLast_trail_of_not_blank _ _ rfl, Source.dropLast_trail_of_not_blank _ _ rfl,
    Source.trail_of_blank _ _ rfl]
  simp only [List.dropLast_singleton, List.forall_mem_cons, List.not_mem_nil, false_imp_iff,
    implies_true, and_true]
  exact ⟨closes_strayArray, Source.closes_of_body?_eq_none rfl rfl⟩

theorem withoutCaret_parse_strayClosers :
    Source.Closes ⟨strayClosers, 0, none⟩ ∧
      (parse strayClosers 9).withoutCaret = (parse strayClosers (-1)).withoutCaret :=
  ⟨closes_strayClosers, withoutCaret_parse closes_strayClosers 9⟩

end Typeahead.Selector
