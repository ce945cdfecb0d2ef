import Typeahead.Proofs.Selector.Heading

/-!
# Reading written values

A written value is taken from a source as one chunk, together with the comma behind it. The
chunk of an object or array has the text between the brackets as its body, and the caret of the
body is counted from the start of that text.
-/

namespace Typeahead.Selector

open Scan

/-! ## Scanning pieces -/

theorem mem_joined {piece : Text} {pieces : List Text} (member : piece ∈ pieces)
    (rest? : Option Text) : ∀ c ∈ piece, c ∈ joined pieces rest? := by
  intro c within
  induction pieces with
  | nil => contradiction
  | cons first more induct =>
      rw [joined_cons, List.mem_append]
      rcases List.mem_cons.mp member with rfl | later
      · exact .inl within
      · have present : more ≠ [] := List.ne_nil_of_mem later
        refine .inr ?_
        simp only [following, List.isEmpty_iff, present, Bool.and_eq_true, false_and, if_false]
        exact List.mem_cons_of_mem ',' (induct later)

theorem neutral_joined {recovery : Option Int} {pieces : List Text} {rest? : Option Text}
    (blank : ∀ rest ∈ rest?, Text.isBlank rest)
    (neutral : ∀ piece ∈ pieces, ∀ position, Neutral recovery position piece) (position : Nat) :
    Neutral recovery position (joined pieces rest?) := by
  induction pieces generalizing position with
  | nil =>
      cases rest? with
      | none => exact neutral_nil recovery position
      | some rest => exact neutral_blanks (blank rest rfl) recovery position
  | cons first more induct =>
      have here := neutral first List.mem_cons_self position
      have later := induct fun piece member => neutral piece (List.mem_cons_of_mem first member)
      rw [joined_cons, following]
      split
      · exact here.append (neutral_nil recovery _)
      · exact here.append ((neutral_singleton recovery _ rfl rfl).append (later _))

/-- A pair of brackets with blanks around it leaves a trace only outside all others. -/
theorem pass_container {recovery : Option Int} {position : Nat} {scan : Scan}
    {delimiter : Delimiter} {before body after : Text} (blankBefore : before.isBlank)
    (blankAfter : after.isBlank) (ready : scan.Ready)
    (closes : Closes recovery (position + before.length + 1) delimiter body) :
    scan.pass recovery position (before ++ delimiter.opener :: body ++ delimiter.closer :: after) =
      some (scan.behind delimiter) := by
  have enclosed := pass_enclosed ready closes
  have whole : before ++ delimiter.opener :: body ++ delimiter.closer :: after =
      before ++ ((delimiter.opener :: body ++ [delimiter.closer]) ++ after) := by
    simp
  rw [whole, pass_append (pass_blanks blankBefore recovery position ready), pass_append enclosed,
    pass_blanks blankAfter recovery _ (ready.behind delimiter)]

/-! ## Scanning values -/

theorem Headed.wellFormed {properties : List (Heading × Written)} {rest? : Option Text}
    (headed : Headed properties rest?) :
    ∀ property ∈ properties, property.1.WellFormed := by
  induction properties with
  | nil => simp
  | cons property more induct =>
      rintro other member
      rcases List.mem_cons.mp member with rfl | later
      · exact headed.1
      · exact induct headed.2.2 other later

/-- A recovery that disturbs no container disturbs none of its pieces. -/
theorem Undisturbed.piece {recovery : Option Int} {before after : Text} {opener closer : Char}
    {pieces : List Text} {rest? : Option Text}
    (undisturbed :
      Undisturbed recovery (before ++ opener :: joined pieces rest? ++ closer :: after))
    {piece : Text} (member : piece ∈ pieces) : Undisturbed recovery piece :=
  undisturbed.mono fun c within => by simp [mem_joined member rest? c within]

/-- The frame of a written value: objects and arrays are closed. -/
def Written.frame? : Written → Option Frame
  | .atom .. => none
  | .object .. => some ⟨.brace, true⟩
  | .array .. => some ⟨.bracket, true⟩

/-- What a scan knows behind a value: nothing is pending, and the frame is known. -/
structure Scan.Finds (scan : Scan) (frame? : Option Frame) : Prop where
  unescaped : scan.escaped = false
  pending : scan.pending = []
  frame : scan.frame? = frame?

/-- A scan comes out of a text as it went in if it is inside brackets, and finds a frame if it
starts with the text. -/
def Reads (recovery : Option Int) (position : Nat) (text : Text) (frame? : Option Frame) : Prop :=
  Neutral recovery position text ∧
    ∃ next, ({} : Scan).pass recovery position text = some next ∧ next.Finds frame?

theorem ready_start : ({} : Scan).Ready where
  unescaped := rfl
  unquoted := by simp

theorem reads_container {recovery : Option Int} {position : Nat} {delimiter : Delimiter}
    (framed : delimiter = .brace ∨ delimiter = .bracket) {before body after : Text}
    (blankBefore : before.isBlank) (blankAfter : after.isBlank)
    (closes : Closes recovery (position + before.length + 1) delimiter body) :
    Reads recovery position (before ++ delimiter.opener :: body ++ delimiter.closer :: after)
      (some ⟨delimiter, true⟩) := by
  constructor
  · intro scan ready inside
    rw [pass_container blankBefore blankAfter ready closes, behind_of_pending_ne_nil inside]
  · refine ⟨_, pass_container blankBefore blankAfter ready_start closes, ?_⟩
    rcases framed with rfl | rfl <;> exact ⟨rfl, rfl, rfl⟩

/-- A scan reads a written value as what it is. -/
theorem Written.WellFormed.reads {written : Written} (wellFormed : written.WellFormed)
    {recovery : Option Int} (undisturbed : Undisturbed recovery written.text) (position : Nat) :
    Reads recovery position written.text written.frame? := by
  induction wellFormed generalizing position with
  | @atom before text after blankBefore blankAfter form =>
      unfold Written.text at undisturbed ⊢
      constructor
      · have inner : Neutral recovery (position + before.length) text := by
          rcases form with rfl | atom
          · exact neutral_nil recovery _
          · exact atom.balanced.neutral undisturbed.left.right _
        refine ((neutral_blanks blankBefore recovery position).append inner).append ?_
        exact neutral_blanks blankAfter recovery _
      · rw [List.append_assoc, pass_append (pass_blanks blankBefore recovery position ready_start)]
        rcases form with rfl | atom
        · exact ⟨{}, pass_blanks blankAfter recovery _ ready_start, rfl, rfl, rfl⟩
        · obtain ⟨next, passed, unescaped, pending, unframed⟩ :=
            atom.balanced.pass_outside undisturbed.left.right (position + before.length) {} rfl
              rfl (.inr atom.begins)
          rw [pass_append passed]
          have ready : next.Ready := ⟨unescaped, by rw [pending]; simp⟩
          exact ⟨next, pass_blanks blankAfter recovery _ ready, unescaped, pending,
            unframed.frame?_eq_none⟩
  | @object before after properties rest? blankBefore blankAfter blank headed _ induct =>
      unfold Written.text at undisturbed ⊢
      rw [propertyTexts_eq_map] at undisturbed ⊢
      refine reads_container (.inl rfl) blankBefore blankAfter
        ((neutral_joined blank ?_ _).closes rfl)
      intro piece member position
      have calm := undisturbed.piece member
      rcases List.mem_map.mp member with ⟨property, within, rfl⟩
      exact ((headed.wellFormed property within).neutral calm.left position).append
        (induct property within calm.right _).1
  | @array before after values rest? blankBefore blankAfter blank visible _ induct =>
      unfold Written.text at undisturbed ⊢
      rw [valueTexts_eq_map] at undisturbed ⊢
      refine reads_container (.inr rfl) blankBefore blankAfter
        ((neutral_joined blank ?_ _).closes rfl)
      intro piece member position
      have calm := undisturbed.piece member
      rcases List.mem_map.mp member with ⟨value, within, rfl⟩
      exact (induct value within calm position).1

/-! ## Chunks -/

/-- The comma behind a value. -/
def commaText (comma : Bool) : Text :=
  if comma then [','] else []

/-- The chunk that is taken for a written value at a place. -/
def Written.chunk (written : Written) (start : Nat) (caret : Caret) (comma : Bool) : Chunk where
  raw := written.text ++ commaText comma
  start := start
  cursor := caret.within 0 (written.text.length + 1)
  frame := written.frame?

/-- A value that a scan passes from its start ends there, at the end or at a comma. -/
theorem Scan.run_of_finds {recovery : Option Int} {text : Text} {next : Scan}
    (passed : ({} : Scan).pass recovery 0 text = some next) {frame? : Option Frame}
    (finds : next.Finds frame?) (more? : Option Text) :
    run recovery 0 {} (text ++ continued more?) = (text.length, next) := by
  rw [run_append_of_pass passed, Nat.zero_add]
  rcases next with ⟨pending, escaped, first, solitary⟩
  rcases finds with ⟨unescaped, outside, _⟩
  simp only at unescaped outside
  subst unescaped outside
  cases more? with
  | none => rfl
  | some rest => rfl

/-- A value whose end a scan has found is taken with the comma behind it. -/
theorem Source.takeValue_of_scanValue {source : Source} {written : Written} {more? : Option Text}
    (raw : source.raw = written.text ++ continued more?) {next : Scan}
    (scanned : source.scanValue = (written.text.length, next))
    (frame : next.frame? = written.frame?) :
    source.takeValue =
      (written.chunk source.start source.caret more?.isSome,
        source.advance (written.text.length + 1)) := by
  have taken : source.raw.take (written.text.length + 1) =
      written.text ++ commaText more?.isSome := by
    rw [raw, List.take_append, List.take_of_length_le (Nat.le_succ _),
      Nat.add_sub_cancel_left]
    cases more? <;> rfl
  rw [takeValue, scanned, cut, taken, frame]
  rfl

theorem Written.WellFormed.takeValue {written : Written} (wellFormed : written.WellFormed)
    {source : Source} {more? : Option Text}
    (raw : source.raw = written.text ++ continued more?) :
    source.takeValue =
      (written.chunk source.start source.caret more?.isSome,
        source.advance (written.text.length + 1)) := by
  obtain ⟨next, passed, finds⟩ := (wellFormed.reads (.inl rfl) 0).2
  refine source.takeValue_of_scanValue raw ?_ finds.frame
  have plain : source.scanFrom none = (written.text.length, next) := by
    rw [Source.scanFrom, raw, run_of_finds passed finds]
  rw [Source.scanValue, plain]
  simp [finds.pending]

end Typeahead.Selector
