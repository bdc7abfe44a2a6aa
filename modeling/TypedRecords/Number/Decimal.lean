/-
Fixed-point decimals.

A decimal is a coefficient of at most 96 bits with at most 28 digits after the point.  Its scale is
part of it: `1.50` and `1.5` are two decimals, equal as numbers.  The normal form has the smallest
scale, so numerically equal decimals share it, and with it their condition text.
-/
import TypedRecords.Number.Double
import TypedRecords.Number.Positional

namespace TypedRecords.Number

/-- The number `coefficient / 10 ^ scale`, with its scale. -/
structure Decimal where
  coefficient : Int
  scale : Nat
  coefficient_lt : coefficient.natAbs < 2 ^ 96
  scale_le : scale ≤ 28
deriving DecidableEq

namespace Decimal

/-- The decimal with this coefficient and scale, when both are within bounds. -/
def ofParts? (coefficient : Int) (scale : Nat) : Option Decimal :=
  if h : coefficient.natAbs < 2 ^ 96 ∧ scale ≤ 28 then some ⟨coefficient, scale, h.1, h.2⟩ else none

/-- Zero. -/
def zero : Decimal := ⟨0, 0, by decide, by decide⟩

instance : Inhabited Decimal := ⟨zero⟩

/-- A 64-bit integer is a decimal of scale zero. -/
def ofInt64 (n : Int64) : Decimal :=
  ⟨n.toInt, 0, by have h1 := n.le_toInt; have h2 := n.toInt_lt; omega, by decide⟩

/-- A 32-bit integer is a decimal of scale zero. -/
def ofInt32 (n : Int32) : Decimal :=
  ⟨n.toInt, 0, by have h1 := n.le_toInt; have h2 := n.toInt_lt; omega, by decide⟩

/-- Numerical order, whatever the scales. -/
def compare (a b : Decimal) : Ordering :=
  Ord.compare (a.coefficient * 10 ^ b.scale) (b.coefficient * 10 ^ a.scale)

/-- The same number at the smallest scale. -/
def normalize (d : Decimal) : Decimal :=
  ⟨(dropZeros d.coefficient d.scale).1, (dropZeros d.coefficient d.scale).2,
    Nat.lt_of_le_of_lt (dropZeros_natAbs_le ..) d.coefficient_lt,
    Nat.le_trans (dropZeros_scale_le ..) d.scale_le⟩

/-- A decimal in plain notation, with all the digits of its scale. -/
def text (d : Decimal) : String :=
  let digits := positional d.coefficient.natAbs d.scale
  String.ofList (if d.coefficient < 0 then '-' :: digits else digits)

/-- The double nearest to a decimal. -/
def toDouble (d : Decimal) : Double :=
  Double.ofRatio (d.coefficient < 0) d.coefficient.natAbs (10 ^ d.scale)

/-! ### Decimals from doubles -/

/-- The fraction `c / (10 ^ scale * 2 ^ n)` as a coefficient and a scale.  A factor of two is
cancelled where it can be, and made a ten by a factor of five otherwise; where 96 bits do not hold
that, the last bit is lost. -/
def overTens (c scale : Nat) : Nat → Nat × Nat
  | 0 => (c, scale)
  | n + 1 =>
    if c % 2 = 0 ∨ 2 ^ 96 ≤ c * 5 then overTens (c / 2) scale n else overTens (c * 5) (scale + 1) n

/-- Drops digits after the point, one at a time and each rounding a half up, until there are at most
28 of them and the coefficient is below `2 ^ 52`, the precision of a double.  A lone digit is
dropped without rounding. -/
def dropDigits (c : Nat) : Nat → Nat × Nat
  | 0 => (c, 0)
  | scale + 1 =>
    if 28 ≤ scale ∨ 2 ^ 52 ≤ c then dropDigits (if c < 10 then 0 else (c + 5) / 10) scale
    else (c, scale + 1)

/-- The decimal for a double at its smallest scale: a whole number exactly, another one to the
precision of a double; none for a special value or one of more than 96 bits. -/
def ofDouble? (d : Double) : Option Decimal :=
  match d.magnitude with
  | .finite significand exponent =>
    let (c, scale) := overTens (significand * 2 ^ exponent.toNat) 0 (-exponent).toNat
    let (c, scale) := dropDigits c scale
    let (coefficient, scale) := dropZeros (if d.negative then -c else c) scale
    ofParts? coefficient scale
  | _ => none

example : (ofDouble? (.ofRatio false 1 10)).map text = some "0.1" := by decide +kernel
example : (ofDouble? (.ofInt (-(2 ^ 63)))).map text = some "-9223372036854775808" := by
  decide +kernel
example : ofDouble? (.ofInt (2 ^ 96)) = none := by decide +kernel

end Decimal

end TypedRecords.Number
