/-
Decimal fractions in plain notation.

A fraction `coefficient / 10 ^ scale` is written with exactly `scale` digits after the point, and
without a point when there are none; at least one digit stands before it.  Trailing zeros after
the point are dropped by lowering the scale, which keeps the number.
-/
import TypedRecords.Text.Digits

namespace TypedRecords.Number

/-- `coefficient / 10 ^ scale` in plain notation. -/
def positional (coefficient scale : Nat) : List Char :=
  let digits := Text.padded (scale + 1) coefficient
  let whole := digits.length - scale
  if scale = 0 then digits else digits.take whole ++ '.' :: digits.drop whole

/-- The same number at the smallest scale. -/
def dropZeros (coefficient : Int) : Nat → Int × Nat
  | 0 => (coefficient, 0)
  | scale + 1 =>
    if coefficient % 10 = 0 then dropZeros (coefficient / 10) scale else (coefficient, scale + 1)

/-- Dropping zeros keeps the number. -/
theorem dropZeros_value (coefficient : Int) (scale : Nat) :
    (dropZeros coefficient scale).1 * 10 ^ scale
      = coefficient * 10 ^ (dropZeros coefficient scale).2 := by
  induction scale generalizing coefficient with
  | zero => simp [dropZeros]
  | succ scale ih =>
    rw [dropZeros]
    split
    · rename_i h
      have hc : coefficient = coefficient / 10 * 10 := by omega
      calc (dropZeros (coefficient / 10) scale).1 * 10 ^ (scale + 1)
          = (dropZeros (coefficient / 10) scale).1 * 10 ^ scale * 10 := by
            rw [Int.pow_succ, Int.mul_assoc]
        _ = coefficient / 10 * 10 ^ (dropZeros (coefficient / 10) scale).2 * 10 := by rw [ih]
        _ = coefficient / 10 * 10 * 10 ^ (dropZeros (coefficient / 10) scale).2 := by
            rw [Int.mul_assoc, Int.mul_comm (10 ^ _), ← Int.mul_assoc]
        _ = coefficient * 10 ^ (dropZeros (coefficient / 10) scale).2 := by rw [← hc]
    · rfl

theorem dropZeros_scale_le (coefficient : Int) (scale : Nat) :
    (dropZeros coefficient scale).2 ≤ scale := by
  induction scale generalizing coefficient with
  | zero => simp [dropZeros]
  | succ scale ih =>
    rw [dropZeros]
    split
    · exact Nat.le_succ_of_le (ih _)
    · exact Nat.le_refl _

theorem dropZeros_natAbs_le (coefficient : Int) (scale : Nat) :
    (dropZeros coefficient scale).1.natAbs ≤ coefficient.natAbs := by
  induction scale generalizing coefficient with
  | zero => simp [dropZeros]
  | succ scale ih =>
    rw [dropZeros]
    split
    · exact Nat.le_trans (ih _) (by omega)
    · exact Nat.le_refl _

end TypedRecords.Number
