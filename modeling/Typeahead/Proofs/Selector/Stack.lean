import Typeahead.Selector.Source

/-!
# The scan on a stack

The scan knows the open delimiters as one list. A machine may instead keep the mode in which it
reads, and a stack of the modes to which it returns: it puts its mode on the stack where a delimiter
opens, and takes a mode from it where one closes. Taking from an empty stack fails. So does a loop
that is not done after as many passes as its budget allows.

The machine that is described here does what the scan does, and so it fails neither way: outside all
delimiters its stack is empty, and inside one it has the way out at the bottom.
-/

namespace Typeahead.Selector

/-! ## The machine -/

/-- How a character is read. -/
inductive Mode where
  | outside
  | inside (delimiter : Delimiter)
  deriving DecidableEq, Repr

/-- The registers of the machine. -/
structure Machine where
  mode : Mode := .outside
  /-- The modes to which the machine returns, the next one first. -/
  stack : List Mode := []
  first : Option Delimiter := none
  solitary : Bool := true
  deriving DecidableEq, Repr

/-- What comes of looking at a character. -/
inductive Pass where
  /-- The value ends in front of the character. -/
  | stops
  /-- Some characters are passed: the one, or a backslash and whatever follows it. -/
  | goesOn (width : Nat) (next : Machine)
  deriving DecidableEq, Repr

namespace Machine

/-- Return to the mode on top of the stack. -/
def pop? (machine : Machine) : Option Machine :=
  match machine.stack with
  | [] => none
  | mode :: stack => some { machine with mode, stack }

/-- Enter a delimiter. -/
def push (machine : Machine) (delimiter : Delimiter) : Machine :=
  { mode := .inside delimiter
    stack := machine.mode :: machine.stack
    first := machine.first.or (some delimiter)
    solitary := machine.solitary && !(machine.mode = .outside && machine.first.isSome) }

/-- Take modes from a stack until one is outside, or inside a delimiter of some kind. -/
def unwind? (target : Delimiter) : List Mode → Option (Mode × List Mode)
  | [] => none
  | mode :: stack =>
      if mode = .outside ∨ mode = .inside target then some (mode, stack) else unwind? target stack

/-- Close all delimiters down to one of some kind, and that one as well. -/
def recover? (machine : Machine) (target : Delimiter) : Option Machine :=
  (unwind? target machine.stack).bind fun (mode, stack) =>
    let unwound := { machine with mode, stack }
    if mode = .outside then some unwound else unwound.pop?

/-- Look at a character outside all delimiters. -/
def passOutside (machine : Machine) (c : Char) : Pass :=
  match Delimiter.opening? c with
  | some delimiter => .goesOn 1 (machine.push delimiter)
  | none =>
      if c = ',' then .stops
      else .goesOn 1 { machine with solitary := machine.solitary && isBlank c }

/-- Look at a character inside a delimiter that it does not close. -/
def passInside (machine : Machine) (delimiter : Delimiter) (c : Char) : Pass :=
  if delimiter.isQuote then
    .goesOn (if c = '\\' then 2 else 1) machine
  else
    match Delimiter.opening? c with
    | some inner => .goesOn 1 (machine.push inner)
    | none => .goesOn 1 machine

/-- Look at a character; it fails where a mode is missing on the stack. -/
def pass? (recovers : Bool) (machine : Machine) (c : Char) : Option Pass :=
  match machine.mode with
  | .outside => some (machine.passOutside c)
  | .inside delimiter =>
      if c = delimiter.closer then
        machine.pop?.map (.goesOn 1)
      else
        match recovers, Delimiter.closing? c with
        | true, some target => (machine.recover? target).map (.goesOn 1)
        | _, _ => some (machine.passInside delimiter c)

/-- Look at the characters of a text from a position on. The result is the position at which the
machine stops; it fails if a pass fails, or if there are more passes than the budget allows. -/
def loop? (recovery : Option Int) : Nat → Nat → Machine → Text → Option (Nat × Machine)
  | 0, _, _, _ => none
  | _ + 1, position, machine, [] => some (position, machine)
  | budget + 1, position, machine, c :: rest =>
      (machine.pass? (Scan.recoversAt recovery position) c).bind fun
        | .stops => some (position, machine)
        | .goesOn width next =>
            loop? recovery budget (position + width) next (rest.drop (width - 1))

/-- The machine comes to a position of a text with these registers. -/
inductive Reaches (recovery : Option Int) (text : Text) : Nat → Machine → Prop
  | start : Reaches recovery text 0 {}
  | pass {position width : Nat} {machine next : Machine} {c : Char} :
      Reaches recovery text position machine → text[position]? = some c →
        machine.pass? (Scan.recoversAt recovery position) c = some (.goesOn width next) →
          Reaches recovery text (position + width) next

/-- Outside all delimiters the stack is empty, and else the way out is at its bottom and nowhere
else. -/
structure Stacked (machine : Machine) : Prop where
  outside_iff : machine.mode = .outside ↔ machine.stack = []
  bottom : machine.stack ≠ [] → machine.stack.getLast? = some .outside
  above : .outside ∉ machine.stack.dropLast

/-- The frame of the characters that were passed. -/
def frame? (machine : Machine) : Option Frame :=
  match machine.solitary, machine.first with
  | true, some .brace => some ⟨.brace, machine.mode = .outside⟩
  | true, some .bracket => some ⟨.bracket, machine.mode = .outside⟩
  | _, _ => none

end Machine

/-! ## The registers of a scan -/

/-- The modes to return to from inside some delimiters. -/
def wayOut (pending : List Delimiter) : List Mode :=
  pending.map .inside ++ [.outside]

theorem wayOut_cons (delimiter : Delimiter) (outer : List Delimiter) :
    wayOut (delimiter :: outer) = .inside delimiter :: wayOut outer :=
  rfl

namespace Scan

/-- The registers of a machine that has passed what a scan has passed. -/
def machine (scan : Scan) : Machine :=
  match scan.pending with
  | [] => { mode := .outside, stack := [], first := scan.first, solitary := scan.solitary }
  | delimiter :: outer =>
      { mode := .inside delimiter
        stack := wayOut outer
        first := scan.first
        solitary := scan.solitary }

/-- The scan stands in front of a character that has its meaning, and remembers what was opened. -/
structure Sound (scan : Scan) : Prop where
  unescaped : scan.escaped = false
  opened : scan.pending ≠ [] → scan.first.isSome

theorem sound_start : ({} : Scan).Sound where
  unescaped := rfl
  opened inside := absurd rfl inside

/-- What comes of a character for the machine, when something comes of it for the scan. -/
def toPass : Option Scan → Pass
  | none => .stops
  | some next => .goesOn (1 + next.escaped.toNat) next.machine

theorem stacked_machine (scan : Scan) : scan.machine.Stacked := by
  rcases scan with ⟨pending, escaped, first, solitary⟩
  cases pending with
  | nil => exact ⟨by simp [machine], by simp [machine], by simp [machine]⟩
  | cons delimiter outer =>
      exact ⟨by simp [machine, wayOut], by simp [machine, wayOut], by simp [machine, wayOut]⟩

theorem frame?_machine (scan : Scan) : scan.machine.frame? = scan.frame? := by
  rcases scan with ⟨pending, escaped, first, solitary⟩
  cases pending <;> cases solitary <;> rcases first with _ | delimiter <;> rfl

end Scan

/-! ## Single passes -/

namespace Machine

open Scan

/-- The stack inside a delimiter has the mode to return to. -/
theorem pop?_of_wayOut {machine : Machine} {outer : List Delimiter}
    (stack : machine.stack = wayOut outer) {scan : Scan} (pending : scan.pending = outer)
    (first : scan.first = machine.first) (solitary : scan.solitary = machine.solitary) :
    machine.pop? = some scan.machine := by
  unfold pop? Scan.machine
  rw [stack, pending, first, solitary]
  cases outer with
  | nil => rfl
  | cons delimiter outer => rfl

/-- Unwinding ends at the bottom of the stack, or earlier at the delimiter that is looked for. -/
theorem unwind?_wayOut (target : Delimiter) (outer : List Delimiter) :
    unwind? target (wayOut outer) =
      match outer.dropWhile (· != target) with
      | [] => some (.outside, [])
      | delimiter :: rest => some (.inside delimiter, wayOut rest) := by
  induction outer with
  | nil => rfl
  | cons delimiter outer inductionHypothesis =>
      rw [wayOut_cons, unwind?]
      by_cases same : delimiter = target
      · simp [same]
      · simp [same, inductionHypothesis]

/-- Recovering never takes from an empty stack, though it takes one mode more than it looks for. -/
theorem recover?_of_wayOut {machine : Machine} {outer : List Delimiter}
    (stack : machine.stack = wayOut outer) {scan : Scan} {target : Delimiter}
    (pending : scan.pending = closeThrough target outer)
    (first : scan.first = machine.first) (solitary : scan.solitary = machine.solitary) :
    machine.recover? target = some scan.machine := by
  rw [recover?, stack, unwind?_wayOut]
  unfold closeThrough at pending
  cases unwound : outer.dropWhile (· != target) with
  | nil =>
      rw [unwound] at pending
      simp only [Option.bind_some, if_true, Scan.machine, pending, List.drop_nil, first, solitary]
  | cons delimiter rest =>
      rw [unwound] at pending
      exact pop?_of_wayOut rfl pending first solitary

variable {scan : Scan} {c : Char}

theorem push_machine (sound : scan.Sound) (delimiter : Delimiter) (inside : scan.pending ≠ []) :
    scan.machine.push delimiter =
      { scan with pending := delimiter :: scan.pending }.machine := by
  rcases scan with ⟨pending, escaped, first, solitary⟩
  cases pending with
  | nil => contradiction
  | cons innermost outer =>
      obtain ⟨known, rfl⟩ := Option.isSome_iff_exists.mp (sound.opened inside)
      simp [push, Scan.machine, wayOut_cons]

theorem passOutside_machine (sound : scan.Sound) (outside : scan.pending = []) :
    scan.machine.passOutside c = toPass (scan.stepOutside c) := by
  rcases scan with ⟨pending, escaped, first, solitary⟩
  obtain rfl : escaped = false := sound.unescaped
  obtain rfl : pending = [] := outside
  unfold passOutside stepOutside
  cases Delimiter.opening? c with
  | some delimiter => cases first <;> simp [toPass, push, Scan.machine, wayOut]
  | none =>
      by_cases comma : c = ','
      · simp [comma, toPass]
      · simp [comma, toPass, Scan.machine]

theorem passInside_machine (sound : scan.Sound) {innermost : Delimiter} {outer : List Delimiter}
    (pending : scan.pending = innermost :: outer) :
    scan.machine.passInside innermost c = toPass (some (scan.stepInside innermost c)) := by
  have inside : scan.pending ≠ [] := by simp [pending]
  unfold passInside stepInside
  split
  · by_cases backslash : c = '\\' <;> simp [backslash, toPass, Scan.machine]
  · cases Delimiter.opening? c with
    | some delimiter =>
        simp only [push_machine sound delimiter inside, toPass, sound.unescaped]
        rfl
    | none =>
        simp only [toPass, sound.unescaped]
        rfl

/-- The machine makes of a character what the scan makes of it. No mode is missing on its stack. -/
theorem pass?_machine (sound : scan.Sound) (recovers : Bool) (c : Char) :
    scan.machine.pass? recovers c = some (toPass (scan.step recovers c)) := by
  have unescaped := sound.unescaped
  cases pending : scan.pending with
  | nil =>
      have outside : scan.machine.mode = .outside := by simp [Scan.machine, pending]
      simp only [pass?, outside, step, unescaped, pending, Bool.false_eq_true, if_false,
        passOutside_machine sound pending]
  | cons innermost outer =>
      have inside : scan.machine.mode = .inside innermost := by simp [Scan.machine, pending]
      have stack : scan.machine.stack = wayOut outer := by simp [Scan.machine, pending]
      have first : scan.first = scan.machine.first := by simp [Scan.machine, pending]
      have solitary : scan.solitary = scan.machine.solitary := by simp [Scan.machine, pending]
      simp only [pass?, inside, step, unescaped, pending, Bool.false_eq_true, if_false]
      by_cases closes : c = innermost.closer
      · rw [if_pos closes, if_pos closes,
          @pop?_of_wayOut _ _ stack { scan with pending := outer } rfl first solitary]
        simp [toPass, unescaped]
      · rw [if_neg closes, if_neg closes]
        cases recovers with
        | false => exact congrArg some (passInside_machine sound pending)
        | true =>
            cases Delimiter.closing? c with
            | none => exact congrArg some (passInside_machine sound pending)
            | some target =>
                simp only [if_true]
                rw [@recover?_of_wayOut _ _ stack
                  { scan with pending := closeThrough target outer } target rfl first solitary]
                simp [toPass, unescaped]

end Machine

/-! ## Runs -/

namespace Scan

variable {scan next : Scan} {c : Char} {recovers : Bool}

/-- Without the backslash that it may have passed, the scan is sound behind each character. -/
theorem Sound.step (sound : scan.Sound) (stepped : scan.step recovers c = some next) :
    { next with escaped := false }.Sound := by
  refine ⟨rfl, fun inside => ?_⟩
  have unescaped := sound.unescaped
  have opened := sound.opened
  revert stepped inside
  unfold Scan.step stepOutside stepInside
  grind

/-- What is pending behind a backslash is what was pending in front of it. -/
theorem machine_unescaped (scan : Scan) : { scan with escaped := false }.machine = scan.machine :=
  rfl

/-- The machine stops where the scan stops, within a budget of one pass more than characters. -/
theorem loop?_machine (sound : scan.Sound) (recovery : Option Int) (position : Nat) (text : Text)
    {budget : Nat} (fits : text.length < budget) :
    Machine.loop? recovery budget position scan.machine text =
      some ((run recovery position scan text).1, (run recovery position scan text).2.machine) := by
  induction budget generalizing scan position text with
  | zero => omega
  | succ budget inductionHypothesis =>
      cases text with
      | nil => simp [Machine.loop?, run, sound.unescaped]
      | cons c rest =>
          rw [List.length_cons] at fits
          rw [Machine.loop?, Machine.pass?_machine sound, Option.bind_some, run]
          cases stepped : scan.step (recoversAt recovery position) c with
          | none => rfl
          | some next =>
              have later := sound.step stepped
              cases escaped : next.escaped with
              | false =>
                  have same : { next with escaped := false } = next := by rw [← escaped]
                  rw [same] at later
                  have onwards := inductionHypothesis later (position + 1) rest (by omega)
                  simpa [toPass, escaped] using onwards
              | true =>
                  -- The machine passes the backslash and the character behind it at once.
                  cases rest with
                  | nil =>
                      have onwards := inductionHypothesis later (position + 2) [] (by omega)
                      simpa [toPass, escaped, run, machine_unescaped] using onwards
                  | cons d more =>
                      have onwards := inductionHypothesis later (position + 2) more
                        (by simp only [List.length_cons] at fits; omega)
                      simpa [toPass, escaped, run, step, machine_unescaped] using onwards

end Scan

namespace Machine

variable {recovery : Option Int} {text : Text} {position : Nat} {machine : Machine}

/-- Wherever the machine comes to, its registers are those of a scan. -/
theorem Reaches.exists_sound (reaches : Reaches recovery text position machine) :
    ∃ scan : Scan, scan.Sound ∧ scan.machine = machine := by
  induction reaches with
  | start => exact ⟨{}, Scan.sound_start, rfl⟩
  | @pass position width machine next c _ _ passed inductionHypothesis =>
      obtain ⟨scan, sound, rfl⟩ := inductionHypothesis
      rw [pass?_machine sound, Option.some.injEq] at passed
      cases stepped : scan.step (Scan.recoversAt recovery position) c with
      | none =>
          rw [stepped] at passed
          contradiction
      | some later =>
          rw [stepped] at passed
          cases passed
          exact ⟨{ later with escaped := false }, sound.step stepped, rfl⟩

theorem Reaches.stacked (reaches : Reaches recovery text position machine) : machine.Stacked := by
  obtain ⟨scan, -, rfl⟩ := reaches.exists_sound
  exact scan.stacked_machine

/-- No pass fails on the way. -/
theorem Reaches.isSome_pass? (reaches : Reaches recovery text position machine) (recovers : Bool)
    (c : Char) : (machine.pass? recovers c).isSome := by
  obtain ⟨scan, sound, rfl⟩ := reaches.exists_sound
  rw [pass?_machine sound]
  rfl

end Machine

end Typeahead.Selector
