import Typeahead.Proofs.Selector.Reading

/-!
# Reading back what was written

The node that is read for a well-formed text shows the tree that the text was written from: the
same objects and arrays, the same names in the same order, and in each leaf its value, without
the blanks and the comma around it. The caret changes nothing of this.
-/

namespace Typeahead.Selector

/-- A comma stands only inside the brackets and quotes of a leaf, and so not at its end. -/
theorem Balanced.getLast?_ne_comma {text : Text} (balanced : Balanced false text) :
    text.getLast? ≠ some ',' := by
  obtain ⟨commas, flag⟩ : ∃ commas, false = commas := ⟨_, rfl⟩
  rw [flag] at balanced
  have closers (delimiter : Delimiter) : delimiter.closer ≠ ',' := by
    cases delimiter <;> decide
  induction balanced with
  | nil => exact fun ends => nomatch ends
  | @plain commas c rest _ _ comma _ induct =>
      cases rest with
      | nil =>
          intro ends
          rw [List.getLast?_singleton, Option.some.injEq] at ends
          exact Bool.false_ne_true (flag.trans (comma ends))
      | cons d more =>
          rw [List.getLast?_cons_cons]
          exact induct flag
  | @quoted commas delimiter inner rest _ _ _ induct
  | @bracketed commas delimiter inner rest _ _ _ _ induct =>
      rw [List.getLast?_append, List.getLast?_cons]
      intro ends
      cases last : rest.getLast? with
      | none =>
          simp only [last, Option.getD_none, Option.some_or, Option.some.injEq] at ends
          exact closers delimiter ends
      | some d =>
          simp only [last, Option.getD_some, Option.some_or] at ends
          exact induct flag (last.trans ends)

theorem IsAtom.isTrimmed {text : Text} (atom : IsAtom text) : Text.IsTrimmed text where
  begins := by
    rcases atom.begins with ⟨c, rest, rfl, visible, _⟩
    intro first found
    rw [List.head?_cons, Option.some.injEq] at found
    rw [← found]
    exact visible
  ends := by
    intro last found
    refine ⟨atom.ends last found, ?_⟩
    rintro rfl
    exact atom.balanced.getLast?_ne_comma found

/-- A leaf shows its value, whether a comma follows it or not. -/
theorem value_span {before text after : Text} (trimmed : Text.IsTrimmed text)
    (blankBefore : before.isBlank) (blankAfter : after.isBlank) (comma : Bool) :
    (before ++ text ++ after ++ commaText comma).value = text.value := by
  rw [trimmed.value_eq, commaText]
  cases comma with
  | false =>
      rw [if_neg Bool.false_ne_true, List.append_nil]
      exact trimmed.value_padded blankBefore blankAfter
  | true =>
      rw [if_pos rfl]
      exact trimmed.value_padded_comma blankBefore blankAfter

/-! ## Outlines of elements -/

theorem propertyOutlines_headedNodes {rest? : Option Text}
    {properties : List (Heading × Written)}
    (outlines : ∀ property ∈ properties, ∀ start caret comma,
      (property.2.node start caret comma).outline = property.2.outline)
    (start : Nat) (caret : Caret) :
    propertyOutlines (headedNodes rest? start caret properties).1 = headedOutlines properties := by
  induction properties generalizing start caret with
  | nil => rfl
  | cons property more induct =>
      rcases property with ⟨heading, value⟩
      have here := outlines (heading, value) List.mem_cons_self
      have later := induct fun other member => outlines other (List.mem_cons_of_mem _ member)
      rw [headedNodes, propertyOutlines, headedOutlines, later, here]
      rfl

theorem valueOutlines_writtenNodes {rest? : Option Text} {values : List Written}
    (outlines : ∀ value ∈ values, ∀ start caret comma,
      (value.node start caret comma).outline = value.outline)
    (start : Nat) (caret : Caret) :
    valueOutlines (writtenNodes rest? start caret values).1 = writtenOutlines values := by
  induction values generalizing start caret with
  | nil => rfl
  | cons value more induct =>
      have here := outlines value List.mem_cons_self
      have later := induct fun other member => outlines other (List.mem_cons_of_mem _ member)
      rw [writtenNodes, valueOutlines, writtenOutlines, later, here]

/-! ## Trees -/

/-- The node of a well-formed tree shows the tree. -/
theorem Written.WellFormed.outline_node {written : Written} (wellFormed : written.WellFormed)
    (start : Nat) (caret : Caret) (comma : Bool) :
    (written.node start caret comma).outline = written.outline := by
  induction wellFormed generalizing start caret comma with
  | @atom before text after blankBefore blankAfter form =>
      have trimmed : Text.IsTrimmed text := by
        rcases form with rfl | atom
        · exact Text.isTrimmed_nil
        · exact atom.isTrimmed
      rw [Written.node, Node.outline, Written.outline, Written.text,
        value_span trimmed blankBefore blankAfter]
  | @object before after properties rest? _ _ _ _ _ induct =>
      rw [Written.node, Node.outline, Written.outline, propertyOutlines_headedNodes induct]
  | @array before after values rest? _ _ _ _ _ induct =>
      rw [Written.node, Node.outline, Written.outline, valueOutlines_writtenNodes induct]

/-- Reading a well-formed text gives back the tree that it was written from, wherever the caret
is. -/
theorem outline_parse {written : Written} (wellFormed : written.WellFormed) (caret : Int) :
    (parse written.text caret).outline = written.outline := by
  rw [wellFormed.parse, wellFormed.outline_node]

/-- A quoted key, a leaf with a comma and a brace in quotes, and one with brackets. -/
theorem outline_parse_nested :
    (parse "\x7b 'a b': ['x,\x7d' , f(1, 2) ]\x7d".toList 9).outline =
      .object [(some "a b", .array [.leaf "'x,\x7d'", .leaf "f(1, 2)"])] := by
  have quotes : IsAtom "'x,\x7d'" := by
    refine ⟨@Balanced.quoted false .apostrophe "x,\x7d" [] rfl ?_ .nil, ?_, by simp; rfl⟩
    · exact .plain (by decide) (by decide) (.plain (by decide) (by decide)
        (.plain (by decide) (by decide) .nil))
    · exact ⟨'\'', "x,\x7d'", rfl, rfl, by decide, by decide⟩
  have call : IsAtom "f(1, 2)" := by
    refine ⟨.plain rfl rfl (by decide)
      (@Balanced.bracketed false .parenthesis "1, 2" [] rfl ?_ .nil), ?_, by simp; rfl⟩
    · exact .plain rfl rfl (fun _ => rfl) (.plain rfl rfl (fun _ => rfl)
        (.plain rfl rfl (fun _ => rfl) (.plain rfl rfl (fun _ => rfl) .nil)))
    · exact ⟨'f', "(1, 2)", rfl, rfl, by decide, by decide⟩
  have values : Written.WellFormed
      (.array [' '] [.atom [] "'x,\x7d'" [' '], .atom [' '] "f(1, 2)" [' ']] none []) := by
    refine .array rfl rfl (by simp) ?_ ?_
    · simp only [List.mem_cons, List.not_mem_nil, or_false]
      rintro value (rfl | rfl) <;> rfl
    · simp only [List.mem_cons, List.not_mem_nil, or_false]
      rintro value (rfl | rfl)
      · exact .atom rfl rfl (.inr quotes)
      · exact .atom rfl rfl (.inr call)
  have whole : Written.WellFormed
      (.object []
        [(⟨[' '], .quoted '\'' "a b", [], true⟩,
          .array [' '] [.atom [] "'x,\x7d'" [' '], .atom [' '] "f(1, 2)" [' ']] none [])]
        none []) := by
    refine .object rfl rfl (by simp) ⟨⟨rfl, .quoted rfl, rfl⟩, by simp, trivial⟩ ?_
    simp only [List.mem_cons, List.not_mem_nil, or_false]
    rintro property rfl
    exact values
  exact outline_parse whole 9

end Typeahead.Selector
