import Typeahead.Acceptance.Basic
import Typeahead.Proofs.Selector.Forms

/-!
# Bare names

A name that needs no quotes is made of letters, digits and a few other characters, and a line may
end behind it. None of them is a blank, a quote, a bracket or a colon, but for the end of the line.
-/

namespace Typeahead.Acceptance

open Selector (Delimiter)

/-- A letter lies in one of two ranges. -/
theorem toNat_of_isAlpha {c : Char} (letter : c.isAlpha = true) :
    65 ≤ c.toNat ∧ c.toNat ≤ 90 ∨ 97 ≤ c.toNat ∧ c.toNat ≤ 122 := by
  rcases Bool.or_eq_true_iff.mp letter with upper | lower
  · have range : 'A'.val ≤ c.val ∧ c.val ≤ 'Z'.val := of_decide_eq_true upper
    exact .inl range
  · obtain ⟨least, most⟩ := Bool.and_eq_true_iff.mp lower
    exact .inr ⟨of_decide_eq_true least, of_decide_eq_true most⟩

/-- The letters and digits among the characters of names lie in three ranges; six others are
single. -/
theorem toNat_of_isNamePart {c : Char} (part : isNamePart c = true) :
    (65 ≤ c.toNat ∧ c.toNat ≤ 90 ∨ 97 ≤ c.toNat ∧ c.toNat ≤ 122 ∨ 48 ≤ c.toNat ∧ c.toNat ≤ 57) ∨
      c.toNat ∈ [0x24, 0x5F, 0x130, 0x131, 0x17F, 0x212A] := by
  simp only [isNamePart, isNameStart, Bool.or_eq_true, beq_iff_eq, Char.isDigit_iff_toNat] at part
  rcases part with ((((((letter | rfl) | rfl) | rfl) | rfl) | rfl) | kelvin) | digit
  · have ranges := toNat_of_isAlpha letter
    omega
  · exact .inr (by decide)
  · exact .inr (by decide)
  · exact .inr (by decide)
  · exact .inr (by decide)
  · exact .inr (by decide)
  · exact .inr (by rw [kelvin]; decide)
  · exact .inl (.inr (.inr digit))

theorem not_isBlank_of_isNamePart {c : Char} (part : isNamePart c = true) : isBlank c = false := by
  cases blank : isBlank c with
  | false => rfl
  | true =>
      have codes := toNat_of_isNamePart part
      simp only [isBlank, CodeRanges.holds, blankRanges, List.any_cons, List.any_nil,
        Bool.or_eq_true, Bool.and_eq_true, decide_eq_true_eq, Bool.false_eq_true, or_false] at blank
      simp only [List.mem_cons, List.not_mem_nil, or_false] at codes
      omega

theorem plain_of_isNamePart {c : Char} (part : isNamePart c = true) :
    Delimiter.opening? c = none ∧ Delimiter.closing? c = none ∧ c ≠ ':' := by
  refine ⟨?_, ?_, ?_⟩
  · cases opens : Delimiter.opening? c with
    | none => rfl
    | some delimiter =>
        rw [Delimiter.eq_opener_of_opening? opens] at part
        cases delimiter <;> contradiction
  · cases closes : Delimiter.closing? c with
    | none => rfl
    | some delimiter =>
        rw [Delimiter.eq_closer_of_closing? closes] at part
        cases delimiter <;> contradiction
  · rintro rfl
    contradiction

/-- A bare name is made of characters of names, and of the end of line that it may have. -/
theorem exists_of_isBareName {name : Text} (bare : isBareName name = true) :
    ∃ c rest, name = c :: rest ∧ isNameStart c = true ∧
      ∀ other ∈ rest, isNamePart other = true ∨ other = '\n' := by
  have split : name = line name ∨ name = line name ++ ['\n'] := by
    unfold line
    split
    · rename_i ends
      rcases List.getLast?_eq_some_iff.mp ends with ⟨front, rfl⟩
      rw [List.dropLast_concat]
      exact .inr rfl
    · exact .inl rfl
  unfold isBareName at bare
  cases shape : line name with
  | nil =>
      rw [shape] at bare
      contradiction
  | cons c rest =>
      rw [shape] at bare split
      rcases Bool.and_eq_true_iff.mp bare with ⟨starts, parts⟩
      rw [List.all_eq_true] at parts
      rcases split with rfl | rfl
      · exact ⟨c, rest, rfl, starts, fun other member => .inl (parts other member)⟩
      · refine ⟨c, rest ++ ['\n'], rfl, starts, fun other member => ?_⟩
        rcases List.mem_append.mp member with among | last
        · exact .inl (parts other among)
        · exact .inr (List.mem_singleton.mp last)

section

variable {name : Text}

/-- A bare name begins with a visible character. -/
theorem exists_visible_of_isBareName (bare : isBareName name = true) :
    ∃ c rest, name = c :: rest ∧ isBlank c = false := by
  obtain ⟨c, rest, shape, starts, _⟩ := exists_of_isBareName bare
  have part : isNamePart c = true := by
    rw [isNamePart, starts, Bool.true_or]
  exact ⟨c, rest, shape, not_isBlank_of_isNamePart part⟩

/-- A bare name can be told from what follows it. -/
theorem plain_of_isBareName (bare : isBareName name = true) :
    ∀ c ∈ name, Delimiter.opening? c = none ∧ Delimiter.closing? c = none ∧ c ≠ ':' := by
  obtain ⟨c, rest, rfl, starts, parts⟩ := exists_of_isBareName bare
  have first : isNamePart c = true := by
    rw [isNamePart, starts, Bool.true_or]
  intro other member
  rcases List.mem_cons.mp member with rfl | among
  · exact plain_of_isNamePart first
  · rcases parts other among with part | rfl
    · exact plain_of_isNamePart part
    · decide

theorem backslash_not_mem_of_isBareName (bare : isBareName name = true) : '\\' ∉ name := by
  intro member
  obtain ⟨c, rest, rfl, starts, parts⟩ := exists_of_isBareName bare
  rcases List.mem_cons.mp member with rfl | among
  · contradiction
  · rcases parts '\\' among with part | newline <;> contradiction

end

/-- The spelling of a name without the quotes around it. -/
def spelled (name : Text) : Text :=
  if isBareName name then name else name.escape

end Typeahead.Acceptance
