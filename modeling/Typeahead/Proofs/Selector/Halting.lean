import Typeahead.Proofs.Selector.Caretless
import Typeahead.Proofs.Selector.Stack

/-!
# Reading ends

The parser is described here once more, with the scan on a stack, and with a budget for all that it
repeats: the passes of a scan, the elements of a body, and the bodies within bodies. It fails where
a mode is missing on a stack and where a budget is spent. Since each element shortens the rest of a
body, and a body is shorter than the chunk around it, one more than the length of the text is budget
enough for all of them, and then the tree is the one that is read without a budget.
-/

namespace Typeahead.Selector

/-! ## Reading on a budget -/

namespace Source

/-- Find the end of the value at the start, at the second attempt if the first one leaves a
delimiter open and there is a caret. -/
def scan? (budget : Nat) (source : Source) : Option (Nat × Machine) :=
  (Machine.loop? none budget 0 {} source.raw).bind fun plain =>
    if plain.2.mode = .outside || source.caret.isNone then some plain
    else Machine.loop? source.caret budget 0 {} source.raw

/-- Take a value and the comma after it. -/
def takeValue? (budget : Nat) (source : Source) : Option (Chunk × Source) :=
  (source.scan? budget).map fun (stop, machine) =>
    ({ raw := source.raw.take (stop + 1)
       start := source.start
       cursor := source.caret.within 0 (stop + 1)
       frame := machine.frame? },
     source.advance (stop + 1))

/-- Take elements until only blanks are left, with the index of the one that holds the caret. -/
def elements? {α : Type} (take? : Source → Option (α × Source)) :
    Nat → Source → Option (List α × Option Nat)
  | 0, _ => none
  | budget + 1, source =>
      if source.raw.isBlank then
        some ([], source.caret.map fun _ => 0)
      else
        (take? source).bind fun (element, rest) =>
          (elements? take? budget rest).map fun (others, index) =>
            (element :: others, source.caret.map fun _ => index.elim 0 (· + 1))

/-- Take a value and look into it. -/
def read? : Nat → Source → Option (Node × Source)
  | 0, _ => none
  | budget + 1, source =>
      (source.takeValue? (budget + 1)).bind fun (chunk, rest) =>
        match chunk.body? with
        | none => some (.span chunk.raw chunk.start chunk.cursor, rest)
        | some (.brace, body) =>
            let readProperty? (part : Source) : Option ((Option Key × Node) × Source) :=
              (read? budget part.takeKey.2).map fun (value, rest) => ((part.takeKey.1, value), rest)
            (elements? readProperty? (budget + 1) body).map fun (properties, index) =>
              (.object chunk.raw chunk.start index properties, rest)
        | some (_, body) =>
            (elements? (read? budget) (budget + 1) body).map fun (values, index) =>
              (.array chunk.raw chunk.start index values, rest)

end Source

/-- Read a text with a caret on a budget. -/
def parse? (budget : Nat) (text : Text) (caret : Int) : Option Node :=
  (Source.read? budget ⟨text, 0, if caret < 0 then none else some caret⟩).map Prod.fst

/-! ## The budget is enough -/

namespace Source

variable {source : Source} {budget : Nat}

theorem loop?_source (recovery : Option Int) (fits : source.raw.length < budget) :
    Machine.loop? recovery budget 0 {} source.raw =
      some ((source.scanFrom recovery).1, (source.scanFrom recovery).2.machine) :=
  Scan.loop?_machine Scan.sound_start recovery 0 source.raw fits

theorem mode_machine_iff (scan : Scan) :
    scan.machine.mode = .outside ↔ scan.pending.isEmpty = true := by
  unfold Scan.machine
  split
  next outside => simp [outside]
  next inside => simp [inside]

theorem scan?_eq (fits : source.raw.length < budget) :
    source.scan? budget = some (source.scanValue.1, source.scanValue.2.machine) := by
  rw [scan?, loop?_source none fits, loop?_source source.caret fits, Option.bind_some, scanValue]
  have closed := mode_machine_iff (source.scanFrom none).2
  by_cases open? : (source.scanFrom none).2.pending.isEmpty = true <;>
    cases caret : source.caret.isNone <;> simp_all

theorem takeValue?_eq (fits : source.raw.length < budget) :
    source.takeValue? budget = some source.takeValue := by
  rw [takeValue?, scan?_eq fits, Option.map_some, takeValue, cut]
  dsimp only
  rw [Scan.frame?_machine]

/-- Elements that are taken without failing, and each of which shortens the rest, are taken within a
budget of one pass more than characters. -/
theorem elements?_eq {α β : Type} {take? : Source → Option (β × Source)}
    {take : Source → α × Source} {shortens : ∀ source, source.raw ≠ [] →
      (take source).2.raw.length < source.raw.length} {view : α → β}
    (takes : ∀ part : Source, part.raw.length ≤ source.raw.length →
      take? part = some (view (take part).1, (take part).2))
    (fits : source.raw.length < budget) :
    source.elements? take? budget =
      some ((source.elements take shortens).1.map view, (source.elements take shortens).2) := by
  induction budget generalizing source with
  | zero => omega
  | succ budget inductionHypothesis =>
      rw [elements?, elements]
      split
      · rfl
      next visible =>
        have present : source.raw ≠ [] := by
          rintro empty
          simp [empty, Text.isBlank] at visible
        have shorter := shortens source present
        have later := inductionHypothesis (fun part short => takes part (by omega))
          (show (take source).2.raw.length < budget by omega)
        rw [takes source (Nat.le_refl _), Option.bind_some]
        dsimp only
        rw [later]
        rfl

/-- What is taken for a property is the value behind its key, which is no longer than the rest. -/
theorem readProperty?_eq {read? : Source → Option (Node × Source)} {part : Source}
    (reads : ∀ inner : Source, inner.raw.length ≤ part.raw.length →
      read? inner = some (inner.takeValue.1.node, inner.takeValue.2)) :
    ((read? part.takeKey.2).map fun (value, rest) => ((part.takeKey.1, value), rest)) =
      some ((part.takeProperty.1.1, part.takeProperty.1.2.node), part.takeProperty.2) := by
  rw [reads _ part.takeKey_raw_length_le, Option.map_some]
  rfl

/-- A value is read within a budget of one more than the length of its source. -/
theorem read?_eq (fits : source.raw.length < budget) :
    source.read? budget = some (source.takeValue.1.node, source.takeValue.2) := by
  induction budget generalizing source with
  | zero => omega
  | succ budget inductionHypothesis =>
      have chunkFits : source.takeValue.1.raw.length ≤ source.raw.length :=
        source.cut_chunk_length_le _
      rw [read?, takeValue?_eq fits, Option.bind_some]
      dsimp only
      cases found : source.takeValue.1.body? with
      | none => rw [Chunk.node_of_body?_eq_none found]
      | some inner =>
          obtain ⟨delimiter, body⟩ := inner
          have shorter := Chunk.body?_length_lt found
          -- All that is read in the body is shorter than the chunk, and so within the budget left.
          have reads : ∀ part : Source, part.raw.length ≤ body.raw.length →
              part.read? budget = some (part.takeValue.1.node, part.takeValue.2) :=
            fun part short => inductionHypothesis (by omega)
          rcases delimiter_of_body? found with rfl | rfl
          · have elements := @elements?_eq body (budget + 1) _ _ _ takeProperty
              takeProperty_raw_length_lt (fun property => (property.1, property.2.node))
              (fun part short => readProperty?_eq fun inner fits => reads inner (by omega))
              (by omega)
            dsimp only
            rw [elements, Option.map_some, Chunk.node_of_body?_eq_brace found]
            rfl
          · have elements := @elements?_eq body (budget + 1) _ _ _ takeValue
              takeValue_raw_length_lt Chunk.node reads (by omega)
            dsimp only
            rw [elements, Option.map_some, Chunk.node_of_body?_eq_bracket found]
            rfl

end Source

/-- A text is read within a budget of one more than its length. -/
theorem parse?_eq {budget : Nat} {text : Text} (fits : text.length < budget) (caret : Int) :
    parse? budget text caret = some (parse text caret) := by
  rw [parse?, Source.read?_eq fits]
  rfl

/-! ## Neither underflow nor loop -/

/-- Wherever the scan comes to in a text, whether it recovers or not, the stack is empty exactly
outside all delimiters, and has the way out at its bottom inside one, so that no mode is missing
where one is taken from it. Each element shortens the rest of a body that is not blank, and a body
is shorter than its chunk. So reading ends, for every text and caret, and neither takes from an
empty stack nor goes on for more than one pass more than there are characters. -/
theorem reading_ends :
    (∀ recovery text position machine, Machine.Reaches recovery text position machine →
      machine.Stacked ∧ ∀ recovers c, (machine.pass? recovers c).isSome) ∧
    (∀ (recovery : Option Int) (text : Text),
      Machine.loop? recovery (text.length + 1) 0 {} text =
        some ((Scan.run recovery 0 {} text).1, (Scan.run recovery 0 {} text).2.machine)) ∧
    (∀ body : Source, body.raw.isBlank = false →
      body.takeProperty.2.raw.length < body.raw.length ∧
        body.takeValue.2.raw.length < body.raw.length) ∧
    (∀ (chunk : Chunk) (delimiter : Delimiter) (body : Source),
      chunk.body? = some (delimiter, body) → body.raw.length < chunk.raw.length) ∧
    ∀ (text : Text) (caret : Int) (budget : Nat), text.length < budget →
      parse? budget text caret = some (parse text caret) := by
  refine ⟨?_, ?_, ?_, ?_, ?_⟩
  · intro recovery text position machine reaches
    exact ⟨reaches.stacked, reaches.isSome_pass?⟩
  · intro recovery text
    exact Scan.loop?_machine Scan.sound_start recovery 0 text (Nat.lt_succ_self _)
  · intro body visible
    have present : body.raw ≠ [] := by
      rintro empty
      simp [empty, Text.isBlank] at visible
    exact ⟨body.takeProperty_raw_length_lt present, body.takeValue_raw_length_lt present⟩
  · intro chunk delimiter body found
    exact Chunk.body?_length_lt found
  · intro text caret budget fits
    exact parse?_eq fits caret

/-- A square bracket and a parenthesis, and a brace that closes neither of them. -/
def strayBrace : Text :=
  ['[', '(', '}']

/-- Behind both openers the machine returns from the parenthesis to the bracket, and from there out.
-/
def strayMachine : Machine where
  mode := .inside .parenthesis
  stack := [.inside .bracket, .outside]
  first := some .bracket

theorem reaches_strayBrace : Machine.Reaches (some 0) strayBrace 2 strayMachine := by
  have behindBracket := @Machine.Reaches.pass (some 0) strayBrace 0 1 _ _ '[' .start rfl rfl
  exact @Machine.Reaches.pass (some 0) strayBrace 1 1 _ _ '(' behindBracket rfl rfl

/-- The brace empties the stack. The text is the chunk of an array whose body is shorter, and it is
read within four passes. -/
theorem reading_ends_strayBrace :
    strayMachine.Stacked ∧
      strayMachine.pass? true '}' = some (.goesOn 1 { first := some .bracket }) ∧
      (∃ body, (Source.mk strayBrace 0 none).takeValue.1.body? = some (.bracket, body) ∧
        body.raw.length < strayBrace.length ∧ body.takeValue.2.raw.length < body.raw.length) ∧
      parse? 4 strayBrace 0 = some (parse strayBrace 0) := by
  obtain ⟨stack, -, shortens, inside, ends⟩ := reading_ends
  have found : (Source.mk strayBrace 0 none).takeValue.1.body? =
      some (.bracket, ⟨['(', '}'], 1, none⟩) := rfl
  refine ⟨(stack _ _ _ _ reaches_strayBrace).1, rfl, ⟨_, found, ?_, ?_⟩,
    ends strayBrace 0 4 (by decide)⟩
  · exact inside _ _ _ found
  · exact (shortens _ rfl).2

end Typeahead.Selector
