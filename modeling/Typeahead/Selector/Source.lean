import Typeahead.Selector.Caret
import Typeahead.Selector.Scan

/-!
# Taking keys and values from a source

A source is the rest of a text that is still to be read, with its place in the whole text and
the caret. Keys and values are taken from its start, and nothing that is taken fails: a key may
lack its colon, a value its closing delimiter, and both may be empty.

A value is cut as a chunk. A chunk that consists of one pair of braces or brackets has a body,
which is a source again and shorter than the chunk.
-/

namespace Typeahead.Selector

/-- The rest of a text that is still to be read. -/
structure Source where
  raw : Text
  start : Nat
  /-- The caret, counted from the start of the rest. -/
  caret : Caret

namespace Source

/-- Drop characters from the start. A source that is already too short starts behind its end. -/
def advance (source : Source) (count : Nat) : Source :=
  { raw := source.raw.drop count
    start := source.start + count
    caret := (source.caret.within count source.raw.length).map Int.ofNat }

theorem advance_raw_length_lt (source : Source) (count : Nat) (present : source.raw ≠ []) :
    (source.advance (count + 1)).raw.length < source.raw.length := by
  have positive := List.length_pos_iff.mpr present
  simp only [advance, List.length_drop]
  omega

theorem advance_raw_length_le (source : Source) (count : Nat) :
    (source.advance count).raw.length ≤ source.raw.length := by
  simp only [advance, List.length_drop]
  omega

end Source

/-! ## Keys -/

/-- An object key with everything up to its colon. -/
structure Key where
  raw : Text
  start : Nat
  /-- The caret, counted from the start of the name. -/
  cursor : Option Nat
  /-- The name as it is spelled in the text. -/
  name : Text
  deriving DecidableEq, Repr

/-- How far a key has been read. -/
inductive KeyScan where
  /-- Only blanks have been passed. -/
  | blank
  /-- A name without quotes starts at a position. -/
  | bare (low : Nat)
  /-- A quoted name starts at a position. -/
  | quoted (quote : Char) (low : Nat) (escaped : Bool)
  /-- A quoted name lies between two positions. -/
  | named (low high : Nat)
  deriving DecidableEq, Repr

namespace KeyScan

/-- Pass one character, or stop at the colon that ends the key. What stands between a closing
quote and the colon is passed over. -/
def step (position : Nat) (c : Char) : KeyScan → Option KeyScan
  | blank =>
      if isBlank c then some blank
      else if c = ':' then none
      else if isQuote c then some (quoted c (position + 1) false)
      else some (bare position)
  | bare low => if c = ':' then none else some (bare low)
  | quoted quote low escaped =>
      if escaped then some (quoted quote low false)
      else if c = '\\' then some (quoted quote low true)
      else if c = quote then some (named low position)
      else some (quoted quote low false)
  | named low high => if c = ':' then none else some (named low high)

/-- The last character passed takes away the meaning of the next one. -/
def escapes : KeyScan → Bool
  | quoted _ _ escaped => escaped
  | _ => false

/-- Pass the characters of a text from a position on, up to the colon or the end. -/
def run : Nat → KeyScan → Text → Nat × KeyScan
  | position, scan, [] => (position + scan.escapes.toNat, scan)
  | position, scan, c :: rest =>
      match scan.step position c with
      | none => (position, scan)
      | some next => run (position + 1) next rest

/-- The ends of the name in a text of a length, when the key stopped at a position. A quoted
name that is not closed reaches to the end of the text. -/
def extent? (length stop : Nat) : KeyScan → Option (Nat × Nat)
  | blank => none
  | bare low => some (low, stop)
  | quoted _ low _ => some (low, length)
  | named low high => some (low, high)

end KeyScan

/-- Take a key and its colon. There is no key where only blanks precede the colon, which is then
taken, or the end, where nothing is taken. -/
def Source.takeKey (source : Source) : Option Key × Source :=
  let (stop, scan) := KeyScan.run 0 .blank source.raw
  match scan.extent? source.raw.length stop with
  | none => (none, if stop < source.raw.length then source.advance (stop + 1) else source)
  | some (low, high) =>
      (some
        { raw := source.raw.take (stop + 1)
          start := source.start
          cursor := source.caret.within low high
          name := (source.raw.take high).drop low },
       source.advance (stop + 1))

/-! ## Values -/

/-- The braces or brackets that a chunk consists of. -/
structure Frame where
  delimiter : Delimiter
  /-- The closer is there. -/
  closed : Bool
  deriving DecidableEq, Repr

/-- The frame of the characters that a scan has passed. -/
def Scan.frame? (scan : Scan) : Option Frame :=
  match scan.solitary, scan.first with
  | true, some .brace => some ⟨.brace, scan.pending.isEmpty⟩
  | true, some .bracket => some ⟨.bracket, scan.pending.isEmpty⟩
  | _, _ => none

/-- A value that was cut from a source and not yet looked into. -/
structure Chunk where
  raw : Text
  start : Nat
  /-- The caret, counted from the start of the chunk. -/
  cursor : Option Nat
  frame : Option Frame

/-- The stretch between an opener and the closer behind it, behind which only blanks and one
comma may stand. -/
def beforeCloser? (closer : Char) (afterOpener : Text) : Option Text :=
  let last := afterOpener.getLast?
  let kept := Text.trimRight (if last = some ',' then afterOpener.dropLast else afterOpener)
  if kept.getLast? = some closer then some kept.dropLast else none

/-- What stands between the opener and the closer of a frame, or the end if it is not closed. -/
def Frame.inner? (frame : Frame) (raw : Text) : Option Text :=
  match raw.trimLeft with
  | [] => none
  | c :: rest =>
      if c = frame.delimiter.opener then
        if frame.closed then beforeCloser? frame.delimiter.closer rest else some rest
      else none

namespace Chunk

/-- The length of the blanks and the opener at the start. -/
def openerLength (chunk : Chunk) : Nat :=
  chunk.raw.leadingBlanks.length + 1

/-- The body of a chunk with a frame, with the delimiter around it. -/
def body? (chunk : Chunk) : Option (Delimiter × Source) :=
  chunk.frame.bind fun frame =>
    (frame.inner? chunk.raw).map fun inner =>
      (frame.delimiter,
        { raw := inner
          start := chunk.start + chunk.openerLength
          caret :=
            (Caret.within (chunk.cursor.map Int.ofNat) chunk.openerLength
              (chunk.openerLength + inner.length)).map Int.ofNat })

end Chunk

namespace Source

/-- Find the end of the value at the start, recovering from a position on. -/
def scanFrom (source : Source) (recovery : Option Int) : Nat × Scan :=
  Scan.run recovery 0 {} source.raw

/-- Find the end of the value at the start. If the plain scan leaves a delimiter open, and there
is a caret, the scan is repeated and recovers behind the caret. -/
def scanValue (source : Source) : Nat × Scan :=
  let plain := source.scanFrom none
  if plain.2.pending.isEmpty || source.caret.isNone then plain
  else source.scanFrom source.caret

/-- Take the value that ends where a scan stopped, and the comma there. -/
def cut (source : Source) (scanned : Nat × Scan) : Chunk × Source :=
  ({ raw := source.raw.take (scanned.1 + 1)
     start := source.start
     cursor := source.caret.within 0 (scanned.1 + 1)
     frame := scanned.2.frame? },
   source.advance (scanned.1 + 1))

/-- Take a value and the comma after it. -/
def takeValue (source : Source) : Chunk × Source :=
  source.cut source.scanValue

/-- Take a value with a scan that recovers behind the caret, and everywhere without a caret. -/
def takeValueRecovering (source : Source) : Chunk × Source :=
  source.cut (source.scanFrom (some (source.caret.getD (-1))))

/-- Take a key and the value after it. -/
def takeProperty (source : Source) : (Option Key × Chunk) × Source :=
  let (key, afterKey) := source.takeKey
  let (value, rest) := afterKey.takeValue
  ((key, value), rest)

end Source

/-! ## What is taken shortens the source -/

theorem beforeCloser?_length_lt {closer : Char} {afterOpener inner : Text}
    (found : beforeCloser? closer afterOpener = some inner) :
    inner.length < afterOpener.length := by
  simp only [beforeCloser?, Option.ite_none_right_eq_some, Option.some.injEq] at found
  obtain ⟨closes, rfl⟩ := found
  have present : 0 < (Text.trimRight
      (if afterOpener.getLast? = some ',' then afterOpener.dropLast else afterOpener)).length := by
    apply List.length_pos_iff.mpr
    intro empty
    simp [empty] at closes
  have shorter : (Text.trimRight
      (if afterOpener.getLast? = some ',' then afterOpener.dropLast else afterOpener)).length ≤
        afterOpener.length := by
    have dropped := (List.dropWhile_suffix Typeahead.isBlank (l :=
      (if afterOpener.getLast? = some ',' then afterOpener.dropLast
        else afterOpener).reverse)).length_le
    simp only [List.length_reverse] at dropped
    simp only [Text.trimRight, List.length_reverse]
    refine Nat.le_trans dropped ?_
    split
    · simp
    · exact Nat.le_refl _
  simp only [List.length_dropLast]
  omega

theorem Frame.inner?_length_lt {frame : Frame} {raw inner : Text}
    (found : frame.inner? raw = some inner) : inner.length < raw.length := by
  have bound := Text.trimLeft_length_le raw
  unfold Frame.inner? at found
  split at found
  · simp at found
  · rename_i c rest trimmed
    rw [trimmed, List.length_cons] at bound
    split at found
    · split at found
      · have := beforeCloser?_length_lt found
        omega
      · simp only [Option.some.injEq] at found
        subst found
        omega
    · simp at found

/-- The body of a chunk is shorter than the chunk. -/
theorem Chunk.body?_length_lt {chunk : Chunk} {delimiter : Delimiter} {body : Source}
    (found : chunk.body? = some (delimiter, body)) : body.raw.length < chunk.raw.length := by
  simp only [Chunk.body?, Option.bind_eq_some_iff, Option.map_eq_some_iff, Prod.mk.injEq] at found
  obtain ⟨frame, _, inner, cut, _, rfl⟩ := found
  exact Frame.inner?_length_lt cut

namespace Source

theorem cut_raw_length_lt (source : Source) (scanned : Nat × Scan) (present : source.raw ≠ []) :
    (source.cut scanned).2.raw.length < source.raw.length :=
  source.advance_raw_length_lt scanned.1 present

theorem cut_chunk_length_le (source : Source) (scanned : Nat × Scan) :
    (source.cut scanned).1.raw.length ≤ source.raw.length := by
  simp only [cut, List.length_take]
  omega

/-- Taking a key drops characters, or leaves the source as it is. -/
theorem takeKey_eq_or_advance (source : Source) :
    source.takeKey.2 = source ∨ ∃ count, source.takeKey.2 = source.advance count := by
  unfold takeKey
  dsimp only
  split
  · dsimp only
    split
    · exact .inr ⟨_, rfl⟩
    · exact .inl rfl
  · exact .inr ⟨_, rfl⟩

theorem takeKey_raw_length_le (source : Source) :
    source.takeKey.2.raw.length ≤ source.raw.length := by
  rcases source.takeKey_eq_or_advance with same | ⟨count, dropped⟩
  · exact Nat.le_of_eq (congrArg (·.raw.length) same)
  · rw [dropped]
    exact source.advance_raw_length_le count

theorem takeValue_raw_length_lt (source : Source) (present : source.raw ≠ []) :
    source.takeValue.2.raw.length < source.raw.length :=
  source.cut_raw_length_lt _ present

theorem takeProperty_raw_length_lt (source : Source) (present : source.raw ≠ []) :
    source.takeProperty.2.raw.length < source.raw.length := by
  have bound := source.takeKey_raw_length_le
  change (source.takeKey.2.takeValue.2).raw.length < source.raw.length
  by_cases consumed : source.takeKey.2.raw = []
  · have positive := List.length_pos_iff.mpr present
    have rest : (source.takeKey.2.takeValue.2).raw.length ≤ source.takeKey.2.raw.length :=
      source.takeKey.2.advance_raw_length_le _
    rw [consumed, List.length_nil] at rest
    omega
  · have shorter := source.takeKey.2.takeValue_raw_length_lt consumed
    omega

end Source

end Typeahead.Selector
