import Typeahead.Proofs.Selector.Walk

/-!
# Carets behind the last element of an array

A value that is taken from a source keeps the caret unless it ends with a comma in front of the
caret. So where the caret of an array stands behind the last element, only blanks separate it
from the comma of that element, or from the opener if there are no elements.
-/

namespace Typeahead.Selector

/-! ## The end of a scan -/

/-- Only a comma ends a value before the end of the text. -/
theorem Scan.eq_comma_of_step_eq_none {recovers : Bool} {scan : Scan} {c : Char}
    (ends : scan.step recovers c = none) : c = ',' := by
  unfold step at ends
  split at ends
  · contradiction
  · split at ends
    · unfold stepOutside at ends
      split at ends
      · contradiction
      · split at ends
        next comma => exact comma
        next => contradiction
    · split at ends
      · contradiction
      · split at ends
        · split at ends <;> contradiction
        · contradiction

/-- A scan stops at a comma or at the end of the text. -/
theorem Scan.exists_run_eq_add (recovery : Option Int) (position : Nat) (scan : Scan)
    (text : Text) :
    ∃ count, (run recovery position scan text).1 = position + count ∧
      (count < text.length → text[count]? = some ',') := by
  induction text generalizing position scan with
  | nil =>
      refine ⟨scan.escaped.toNat, rfl, ?_⟩
      intro impossible
      exact absurd impossible (Nat.not_lt_zero _)
  | cons c rest inductionHypothesis =>
      rw [run]
      split
      next ends =>
        refine ⟨0, rfl, ?_⟩
        intro _
        rw [List.getElem?_cons_zero, eq_comma_of_step_eq_none ends]
      next next _ =>
        obtain ⟨count, stops, comma⟩ := inductionHypothesis (position + 1) next
        refine ⟨count + 1, ?_, ?_⟩
        · rw [stops]
          omega
        · intro within
          rw [List.getElem?_cons_succ]
          exact comma (Nat.lt_of_succ_lt_succ within)

namespace Source

/-- A value that ends before the end of its source ends with a comma. -/
theorem getElem?_scanValue {source : Source} (within : source.scanValue.1 < source.raw.length) :
    source.raw[source.scanValue.1]? = some ',' := by
  have comma (recovery : Option Int)
      (before : (source.scanFrom recovery).1 < source.raw.length) :
      source.raw[(source.scanFrom recovery).1]? = some ',' := by
    obtain ⟨count, stops, found⟩ := Scan.exists_run_eq_add recovery 0 {} source.raw
    rw [Nat.zero_add] at stops
    unfold scanFrom at before ⊢
    rw [stops] at before ⊢
    exact found before
  unfold scanValue at within ⊢
  simp only at within ⊢
  split
  next plain =>
    rw [if_pos plain] at within
    exact comma none within
  next plain =>
    rw [if_neg plain] at within
    exact comma source.caret within

/-- A value in front of the caret ends with a comma, and what is left starts behind it. -/
theorem takeValue_of_caret {source : Source} {caret : Int}
    (kept : source.takeValue.2.caret = some caret) :
    source.takeValue.1.raw.getLast? = some ',' ∧
      source.raw = source.takeValue.1.raw ++ source.takeValue.2.raw ∧
        source.takeValue.2.start = source.start + source.takeValue.1.raw.length := by
  obtain ⟨offset, behind, _⟩ := Option.map_eq_some_iff.mp kept
  have reaches := ((Caret.within_eq_some_iff _ _ _ _).mp behind).2
  have within : source.scanValue.1 < source.raw.length := by omega
  have raw : source.takeValue.1.raw = source.raw.take (source.scanValue.1 + 1) := rfl
  have rest : source.takeValue.2.raw = source.raw.drop (source.scanValue.1 + 1) := rfl
  have start : source.takeValue.2.start = source.start + (source.scanValue.1 + 1) := rfl
  refine ⟨?_, ?_, ?_⟩
  · rw [raw, List.getLast?_take, if_neg (Nat.succ_ne_zero _), Nat.add_sub_cancel,
      getElem?_scanValue within, Option.some_or]
  · rw [raw, rest, List.take_append_drop]
  · rw [start, raw, List.length_take, Nat.min_eq_left within]

/-- Elements that hold the caret were taken from a source with a caret. -/
theorem exists_caret_of_elements {α : Type} {take : Source → α × Source}
    {shortens : ∀ source, source.raw ≠ [] → (take source).2.raw.length < source.raw.length}
    {source : Source} {index : Nat} (cursor : (source.elements take shortens).2 = some index) :
    ∃ caret, source.caret = some caret := by
  rw [elements] at cursor
  split at cursor
  · obtain ⟨caret, found, _⟩ := Option.map_eq_some_iff.mp cursor
    exact ⟨caret, found⟩
  · obtain ⟨caret, found, _⟩ := Option.map_eq_some_iff.mp cursor
    exact ⟨caret, found⟩

/-- The text of a body whose caret stands behind the last value: the values end with their
commas, and only blanks follow. -/
theorem exists_of_values_behind {body : Source} {index : Nat}
    (cursor : body.values.2 = some index) (absent : body.values.1[index]? = none) :
    ∃ front blanks, body.raw = front ++ blanks ∧ blanks.isBlank ∧
      (body.values.1 = [] ∧ front = [] ∨
        ∃ last, body.values.1.getLast? = some last ∧ last.raw.getLast? = some ',' ∧
          front.getLast? = some ',' ∧
            last.start + last.raw.length = body.start + front.length) := by
  unfold values at *
  fun_induction elements takeValue takeValue_raw_length_lt body generalizing index with
  | case1 body blank => exact ⟨[], body.raw, rfl, blank, .inl ⟨rfl, rfl⟩⟩
  | case2 body _ taken others =>
      rename_i inductionHypothesis
      obtain ⟨_, _, rfl⟩ := Option.map_eq_some_iff.mp cursor
      cases found : others.2 with
      | none =>
          rw [found] at absent
          contradiction
      | some later =>
          rw [found, Option.elim_some, List.getElem?_cons_succ] at absent
          obtain ⟨caret, kept⟩ := exists_caret_of_elements found
          obtain ⟨comma, whole, behind⟩ := takeValue_of_caret kept
          obtain ⟨front, blanks, rest, blank, either⟩ := inductionHypothesis found absent
          refine ⟨taken.1.raw ++ front, blanks, ?_, blank, .inr ?_⟩
          · rw [whole, rest, List.append_assoc]
          · rcases either with ⟨empty, rfl⟩ | ⟨last, isLast, ends, frontEnds, stops⟩
            · refine ⟨taken.1, ?_, comma, ?_, ?_⟩
              · rw [empty, List.getLast?_singleton]
              · rw [List.append_nil, comma]
              · rw [List.append_nil]
                rfl
            · refine ⟨last, ?_, ends, ?_, ?_⟩
              · rw [List.getLast?_cons, isLast, Option.getD_some]
              · rw [List.getLast?_append, frontEnds, Option.some_or]
              · rw [stops, behind, List.length_append, Nat.add_assoc]

end Source

/-! ## The text of the array -/

/-- The text of an array whose caret stands behind its last element: that element ends with its
comma, and only blanks separate the comma, or the opener, from the closer or the end. -/
theorem Chunk.Lies.exists_of_isBehindLast {text : Text} {least : Nat} {chunk : Chunk}
    (lies : chunk.Lies text least) {raw : Text} {start : Nat} {cursor : Option Nat}
    {values : List Node} (looked : chunk.node = .array raw start cursor values)
    (behind : chunk.node.IsBehindLast) :
    ∃ front blanks after, chunk.raw = front ++ (blanks ++ after) ∧ blanks.isBlank ∧
      (after = [] ∨ ∃ rest, after = ']' :: rest ∧ Text.value rest = []) ∧
        (values = [] ∧ front = chunk.raw.leadingBlanks ++ ['['] ∨
          ∃ last, values.getLast? = some last ∧ last.raw.getLast? = some ',' ∧
            front.getLast? = some ',' ∧ last.stop = chunk.start + front.length) := by
  rw [looked] at behind
  obtain ⟨index, here, absent⟩ := behind
  obtain ⟨delimiter, body, found, noBrace, cursor, rfl⟩ := chunk.exists_of_node_eq_array looked
  obtain rfl := (lies.delimiter found).resolve_left noBrace
  obtain ⟨frame, _, _, starts, afterOpener, whole, inner⟩ := chunk.exists_of_body? found
  rw [List.getElem?_map, Option.map_eq_none_iff] at absent
  obtain ⟨front, blanks, split, blank, either⟩ :=
    Source.exists_of_values_behind (cursor.symm.trans here) absent
  obtain ⟨after, closes, ends⟩ : ∃ after, afterOpener = body.raw ++ after ∧
      (after = [] ∨ ∃ rest, after = ']' :: rest ∧ Text.value rest = []) := by
    split at inner
    · obtain ⟨rest, closed, noValue⟩ := exists_of_beforeCloser? inner
      exact ⟨']' :: rest, closed, .inr ⟨rest, rfl, noValue⟩⟩
    · exact ⟨[], by rw [inner, List.append_nil], .inl rfl⟩
  refine ⟨chunk.raw.leadingBlanks ++ '[' :: front, blanks, after, ?_, blank, ends, ?_⟩
  · calc chunk.raw = chunk.raw.leadingBlanks ++ '[' :: afterOpener := whole
      _ = chunk.raw.leadingBlanks ++ '[' :: (front ++ blanks ++ after) := by rw [closes, split]
      _ = (chunk.raw.leadingBlanks ++ '[' :: front) ++ (blanks ++ after) := by simp
  · rcases either with ⟨empty, rfl⟩ | ⟨last, isLast, comma, frontEnds, stops⟩
    · exact .inl ⟨by rw [empty]; rfl, rfl⟩
    · refine .inr ⟨last.node, ?_, ?_, ?_, ?_⟩
      · rw [List.getLast?_map, isLast, Option.map_some]
      · rw [Chunk.node_raw, comma]
      · rw [List.getLast?_append, List.getLast?_cons, frontEnds, Option.getD_some, Option.some_or]
      · rw [Node.stop, Chunk.node_raw, Chunk.node_start, stops, starts, List.length_append,
          List.length_cons]
        omega

end Typeahead.Selector
