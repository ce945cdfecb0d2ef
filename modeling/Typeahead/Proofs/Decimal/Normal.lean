import Mathlib.Algebra.Group.Nat.Defs
import Typeahead.Decimal.Binary

/-!
# Normal forms of exact values

A value other than zero has one form with an odd mantissa. So two finite values have one normal form
if and only if their mantissas differ by powers of two that their exponents make up for.
-/

namespace Typeahead.Decimal.Binary

/-- An odd number and a power of two are determined by their product. -/
theorem odd_mul_pow_inj {first second : Nat} (firstOdd : first % 2 = 1) (secondOdd : second % 2 = 1)
    {m n : Nat} (same : first * 2 ^ m = second * 2 ^ n) : first = second ∧ m = n := by
  induction m generalizing n with
  | zero =>
      cases n with
      | zero => exact ⟨by simpa using same, rfl⟩
      | succ n =>
          rw [Nat.pow_succ, ← Nat.mul_assoc] at same
          omega
  | succ m induct =>
      cases n with
      | zero =>
          rw [Nat.pow_succ, ← Nat.mul_assoc] at same
          omega
      | succ n =>
          rw [Nat.pow_succ, Nat.pow_succ, ← Nat.mul_assoc, ← Nat.mul_assoc] at same
          obtain ⟨odd, power⟩ := induct (Nat.eq_of_mul_eq_mul_right (by decide) same)
          exact ⟨odd, congrArg (· + 1) power⟩

/-- Reducing takes all factors of two out of a mantissa. -/
theorem exists_reduce {fuel mantissa : Nat} (present : mantissa ≠ 0) (enough : mantissa.log2 ≤ fuel)
    (exponent : Int) :
    ∃ odd moved : Nat, reduce fuel mantissa exponent = (odd, exponent + moved) ∧ odd % 2 = 1 ∧
      mantissa = odd * 2 ^ moved := by
  induction fuel generalizing mantissa exponent with
  | zero =>
      have small : mantissa < 2 := by
        have bound := Nat.lt_log2_self (n := mantissa)
        rw [Nat.le_zero.mp enough] at bound
        exact bound
      exact ⟨mantissa, 0, by simp [reduce], by omega, by simp⟩
  | succ fuel induct =>
      rw [reduce]
      by_cases even : mantissa % 2 = 0
      · rw [if_pos even]
        have halfPresent : mantissa / 2 ≠ 0 := by omega
        have halfEnough : (mantissa / 2).log2 ≤ fuel := by
          rw [Nat.log2_def, if_pos (by omega)] at enough
          omega
        obtain ⟨odd, moved, reduced, isOdd, half⟩ := induct halfPresent halfEnough (exponent + 1)
        refine ⟨odd, moved + 1, ?_, isOdd, ?_⟩
        · rw [reduced]
          congr 1
          omega
        · rw [Nat.pow_succ, ← Nat.mul_assoc, ← half]
          omega
      · rw [if_neg even]
        exact ⟨mantissa, 0, by simp, by omega, by simp⟩

/-- The normal form of a value other than zero. -/
theorem exists_normal (negative : Bool) {mantissa : Nat} (present : mantissa ≠ 0) (exponent : Int) :
    ∃ odd moved : Nat, (finite negative mantissa exponent).normal =
        .finite negative odd (exponent + moved) ∧ odd % 2 = 1 ∧ mantissa = odd * 2 ^ moved := by
  obtain ⟨odd, moved, reduced, isOdd, whole⟩ :=
    exists_reduce present (Nat.le_refl mantissa.log2) exponent
  refine ⟨odd, moved, ?_, isOdd, whole⟩
  rw [normal, if_neg present, reduced]

/-- A power of two may stand in the mantissa or in the exponent. -/
theorem normal_mul_pow (negative : Bool) (mantissa moved : Nat) (exponent : Int) :
    (finite negative (mantissa * 2 ^ moved) exponent).normal =
      (finite negative mantissa (exponent + moved)).normal := by
  by_cases present : mantissa = 0
  · simp [present, normal]
  · have shifted : mantissa * 2 ^ moved ≠ 0 := by
      have positive : 0 < 2 ^ moved := Nat.two_pow_pos moved
      exact Nat.mul_ne_zero present (by omega)
    obtain ⟨first, firstMoved, firstForm, firstOdd, firstWhole⟩ :=
      exists_normal negative shifted exponent
    obtain ⟨second, secondMoved, secondForm, secondOdd, secondWhole⟩ :=
      exists_normal negative present (exponent + moved)
    rw [secondWhole, Nat.mul_assoc, ← Nat.pow_add] at firstWhole
    obtain ⟨rfl, rfl⟩ := odd_mul_pow_inj secondOdd firstOdd firstWhole
    rw [firstForm, secondForm]
    congr 1
    omega

end Typeahead.Decimal.Binary
