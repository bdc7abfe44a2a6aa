/-
Decimals as rational numbers.

A decimal's scale is part of it, so one number has several decimals.  `Decimal.value` is the number;
the normal form keeps it and has no zero left to drop.  Two decimals without such zeros that are one
number are one decimal: were their scales different, the coefficient at the larger one would end in
a zero.  So the normal form depends on the number alone.
-/
import Mathlib.Algebra.Field.Rat
import Mathlib.Tactic.Positivity
import TypedRecords.Number.Decimal

namespace TypedRecords.Number

/-- What dropping zeros leaves has none to drop. -/
theorem dropZeros_trimmed (coefficient : Int) (scale : Nat) :
    (dropZeros coefficient scale).2 = 0 ∨ (dropZeros coefficient scale).1 % 10 ≠ 0 := by
  induction scale generalizing coefficient with
  | zero => exact Or.inl rfl
  | succ scale ih =>
      rw [dropZeros]
      by_cases h : coefficient % 10 = 0
      · rw [if_pos h]
        exact ih (coefficient / 10)
      · rw [if_neg h]
        exact Or.inr h

namespace Decimal

/-- The number that a decimal is. -/
def value (d : Decimal) : ℚ := d.coefficient / 10 ^ d.scale

/-- No digit after the point can be dropped. -/
def Trimmed (d : Decimal) : Prop := d.scale = 0 ∨ d.coefficient % 10 ≠ 0

theorem value_eq_iff (a b : Decimal) :
    a.value = b.value ↔ a.coefficient * 10 ^ b.scale = b.coefficient * 10 ^ a.scale := by
  unfold value
  rw [div_eq_div_iff (by positivity) (by positivity)]
  exact_mod_cast Iff.rfl

/-- A decimal without a scale is its coefficient. -/
theorem value_of_scale {d : Decimal} (h : d.scale = 0) : d.value = d.coefficient := by
  rw [value, h, pow_zero, div_one]

@[simp] theorem value_normalize (d : Decimal) : d.normalize.value = d.value :=
  (value_eq_iff _ _).mpr (dropZeros_value d.coefficient d.scale)

theorem trimmed_normalize (d : Decimal) : d.normalize.Trimmed :=
  dropZeros_trimmed d.coefficient d.scale

namespace Trimmed

variable {a b : Decimal}

/-- A trimmed coefficient that ends in a zero stands before the point. -/
theorem scale_eq_zero (ha : a.Trimmed) {m : Int} {places : Nat}
    (h : a.coefficient = m * 10 ^ (places + 1)) : a.scale = 0 := by
  rcases ha with hscale | hdigit
  · exact hscale
  · exact absurd (by rw [h, Int.pow_succ, ← mul_assoc, Int.mul_emod_left]) hdigit

/-- Of two decimals that are one number, the trimmed one has the smaller scale. -/
theorem scale_le (ha : a.Trimmed) (h : a.value = b.value) : a.scale ≤ b.scale := by
  by_contra hlt
  obtain ⟨places, hplaces⟩ : ∃ places, a.scale = b.scale + (places + 1) :=
    ⟨a.scale - b.scale - 1, by omega⟩
  rw [value_eq_iff, hplaces, Int.pow_add, mul_comm (10 ^ b.scale) (10 ^ (places + 1) : Int),
    ← mul_assoc] at h
  have hcoefficient : a.coefficient = b.coefficient * 10 ^ (places + 1) :=
    mul_right_cancel₀ (by positivity) h
  have hzero := ha.scale_eq_zero hcoefficient
  omega

theorem eq_of_value_eq (ha : a.Trimmed) (hb : b.Trimmed) (h : a.value = b.value) : a = b := by
  have hscale : a.scale = b.scale := le_antisymm (ha.scale_le h) (hb.scale_le h.symm)
  rw [value_eq_iff, hscale] at h
  have hcoefficient : a.coefficient = b.coefficient := mul_right_cancel₀ (by positivity) h
  cases a
  cases b
  cases hscale
  cases hcoefficient
  rfl

/-- A trimmed decimal that is a whole number has no digits after the point. -/
theorem scale_eq_zero_of_whole (ha : a.Trimmed) {n : ℤ} (h : a.value = n) : a.scale = 0 := by
  by_contra hne
  obtain ⟨places, hplaces⟩ : ∃ places, a.scale = places + 1 := ⟨a.scale - 1, by omega⟩
  rw [value, div_eq_iff (by positivity), hplaces] at h
  have hcoefficient : a.coefficient = n * 10 ^ (places + 1) := by exact_mod_cast h
  exact hne (ha.scale_eq_zero hcoefficient)

end Trimmed

/-- **Numerically equal decimals have one normal form.** -/
theorem normalize_eq_iff (a b : Decimal) : a.normalize = b.normalize ↔ a.value = b.value := by
  constructor
  · intro h
    rw [← value_normalize a, h, value_normalize]
  · intro h
    exact a.trimmed_normalize.eq_of_value_eq b.trimmed_normalize (by simpa using h)

end Decimal

end TypedRecords.Number
