import HttpSuite.Decimal.Binary64
import Mathlib.Algebra.Order.Field.Power
import Mathlib.Algebra.Order.Field.Rat
import Mathlib.Tactic.Linarith
import Mathlib.Tactic.Positivity
import Mathlib.Tactic.Ring

/-!
# The number that a double is

`numEq` compares signs, significands and exponents, and lets the two zeros be one. That it
compares numbers is due to the form of a double: of the ways to write a number as a
significand times a power of two, only one has as many bits as fit, or the least exponent.
So two doubles that are the same number agree in every part, unless they are zero.
-/

namespace HttpSuite.Binary64

/-- The number without its sign. -/
def magnitude (x : Binary64) : ℚ := x.significand * 2 ^ x.exponent

/-- The number. -/
def value (x : Binary64) : ℚ := if x.negative then -x.magnitude else x.magnitude

theorem magnitude_nonneg (x : Binary64) : 0 ≤ x.magnitude := by
  unfold magnitude
  positivity

theorem magnitude_eq_zero_iff (x : Binary64) : x.magnitude = 0 ↔ x.isZero = true := by
  have hpow : (2 : ℚ) ^ x.exponent ≠ 0 := by positivity
  rw [magnitude, mul_eq_zero, or_iff_left hpow, isZero, beq_iff_eq, Nat.cast_eq_zero]

/-- With a greater exponent comes a greater number, for the greater exponent is not the
least one and its significand is full. -/
theorem magnitude_lt_of_exponent_lt {x y : Binary64} (h : x.exponent < y.exponent) :
    x.magnitude < y.magnitude := by
  have hx := x.significand_lt
  have hy : Nat.pow 2 52 ≤ y.significand := by
    have hge := x.exponent_ge
    exact y.normal.resolve_left (by omega)
  obtain ⟨d, hd⟩ : ∃ d : ℕ, y.exponent = x.exponent + 1 + d :=
    ⟨(y.exponent - x.exponent - 1).toNat, by omega⟩
  have hshift : x.significand < y.significand * 2 * 2 ^ d := by
    have hpow : 1 ≤ 2 ^ d := Nat.one_le_two_pow
    have hle := Nat.mul_le_mul_left (y.significand * 2) hpow
    simp only [Nat.pow_eq] at hx hy
    omega
  have hscale : (0 : ℚ) < 2 ^ x.exponent := by positivity
  calc x.magnitude
      < (y.significand * 2 * 2 ^ d : ℕ) * 2 ^ x.exponent :=
        mul_lt_mul_of_pos_right (by exact_mod_cast hshift) hscale
    _ = y.magnitude := by
        rw [magnitude, hd, zpow_add₀ two_ne_zero, zpow_add₀ two_ne_zero, zpow_one, zpow_natCast]
        push_cast
        ring

/-- A number is a double in one way only. -/
theorem eq_of_magnitude_eq {x y : Binary64} (h : x.magnitude = y.magnitude) :
    x.exponent = y.exponent ∧ x.significand = y.significand := by
  have hexp : x.exponent = y.exponent := by
    rcases lt_trichotomy x.exponent y.exponent with hlt | heq | hgt
    · exact absurd h (magnitude_lt_of_exponent_lt hlt).ne
    · exact heq
    · exact absurd h (magnitude_lt_of_exponent_lt hgt).ne'
  refine ⟨hexp, ?_⟩
  have hpow : (2 : ℚ) ^ y.exponent ≠ 0 := by positivity
  rw [magnitude, magnitude, hexp] at h
  exact_mod_cast mul_right_cancel₀ hpow h

/-- Doubles are equal as numbers exactly if they are the same number. -/
theorem numEq_iff (x y : Binary64) : x.numEq y = true ↔ x.value = y.value := by
  rw [numEq, Bool.or_eq_true, beq_iff_eq, Bool.and_eq_true, ← magnitude_eq_zero_iff,
    ← magnitude_eq_zero_iff]
  have hx := x.magnitude_nonneg
  have hy := y.magnitude_nonneg
  constructor
  · rintro (rfl | ⟨hx, hy⟩)
    · rfl
    · simp [value, hx, hy]
  · intro h
    by_cases hsign : x.negative = y.negative
    · have hmag : x.magnitude = y.magnitude := by
        rw [value, value, hsign] at h
        split at h <;> linarith
      obtain ⟨hexp, hsig⟩ := eq_of_magnitude_eq hmag
      obtain ⟨_, _, _⟩ := x
      obtain ⟨_, _, _⟩ := y
      simp_all
    · -- Numbers of different signs are the same only if both are zero.
      refine Or.inr ?_
      rw [value, value] at h
      constructor <;> split at h <;> split at h <;> first | linarith | simp_all

end HttpSuite.Binary64
