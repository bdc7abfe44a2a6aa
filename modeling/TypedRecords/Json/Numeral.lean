/-
JSON numbers as they are written.

A number keeps its digits: a sign, a whole part, perhaps a fraction and an exponent.  Only one
written without fraction and exponent is a whole number, and `-0` is not.  As a double, the digits
that fit 64 bits form the significand, and the power of ten is applied by multiplying or dividing
once, or by steps of `10 ^ 308` below the range; a number too large is refused.
-/
import TypedRecords.Number.Shortest
import TypedRecords.Text.Digits

namespace TypedRecords.Json

open Number (Double Scientific)

/-- A number by its digits. -/
structure Numeral where
  negative : Bool := false
  whole : List Nat
  fraction : Option (List Nat) := none
  /-- Whether the exponent is negative, and its digits. -/
  exponent : Option (Bool × List Nat) := none
deriving DecidableEq, Inhabited

namespace Numeral

/-- The digits of a natural number. -/
def digitsOf (n : Nat) : List Nat := (Nat.toDigits 10 n).filterMap Text.digitValue?

/-- A natural number. -/
def ofNat (n : Nat) : Numeral := { whole := digitsOf n }

/-- A whole number. -/
def ofInt (n : Int) : Numeral := { negative := n < 0, whole := digitsOf n.natAbs }

/-- The whole number that is written, if it is one. -/
def toInt? (n : Numeral) : Option Int :=
  let magnitude := Text.ofDigits 10 0 n.whole
  match n.fraction, n.exponent with
  | none, none =>
    if n.negative then if magnitude = 0 then none else some (-magnitude) else some magnitude
  | _, _ => none

/-! ### Doubles -/

/-- A number as a shortest-digits text would write it: plain up to sixteen places and five zeros,
else with an exponent. -/
def ofScientific (negative : Bool) (s : Scientific) : Numeral :=
  let digits := digitsOf s.coefficient
  let point := s.exponent + digits.length
  let zeros (n : Int) := List.replicate n.toNat 0
  if 0 ≤ s.exponent ∧ point ≤ 16 then
    { negative, whole := digits ++ zeros s.exponent, fraction := some [0] }
  else if 0 < point ∧ point ≤ 16 then
    { negative, whole := digits.take point.toNat, fraction := some (digits.drop point.toNat) }
  else if -5 < point ∧ point ≤ 0 then
    { negative, whole := [0], fraction := some (zeros (-point) ++ digits) }
  else
    { negative
      whole := digits.take 1
      fraction := if digits.length ≤ 1 then none else some (digits.drop 1)
      exponent := some (point < 1, digitsOf (point - 1).natAbs) }

/-- The number with the shortest digits for a double, none for a special value. -/
def ofDouble? (d : Double) : Option Numeral :=
  match d.magnitude with
  | .finite significand exponent =>
    some (ofScientific d.negative (Double.shortest significand exponent))
  | _ => none

/-- Takes digits into the significand while it fits 64 bits; gives the digits left. -/
def takeDigits (significand : Nat) : List Nat → Nat × List Nat
  | [] => (significand, [])
  | d :: ds =>
    if significand * 10 + d < 2 ^ 64 then takeDigits (significand * 10 + d) ds
    else (significand, d :: ds)

/-- The number that the double nearest to `10 ^ n` stands for. -/
def powerOfTen (n : Nat) : Nat :=
  match (Double.ofRatio false (10 ^ n) 1).magnitude with
  | .finite significand exponent =>
    let (num, den) := Double.ratio significand exponent
    num / den
  | _ => 0

example : powerOfTen 3 = 1000 := by decide +kernel

/-- A double times a power of ten. -/
def shift (d : Double) (exponent : Int) : Option Double :=
  if h : exponent < -308 then
    if d.isZero then some d
    else shift (d.scale 1 (powerOfTen 308)) (exponent + 308)
  else if exponent < 0 then some (d.scale 1 (powerOfTen exponent.natAbs))
  else if exponent ≤ 308 then
    let product := d.scale (powerOfTen exponent.toNat) 1
    if product.isInfinite then none else some product
  else if d.isZero then some d
  else none
termination_by exponent.natAbs
decreasing_by omega

/-- The exponent's value; none when it does not fit 31 bits. -/
def exponentValue? (n : Numeral) : Option Int :=
  match n.exponent with
  | none => some 0
  | some (negative, digits) =>
    let magnitude := Text.ofDigits 10 0 digits
    if magnitude < 2 ^ 31 then some (if negative then -magnitude else magnitude) else none

/-- The double that a number stands for. -/
def toDouble? (n : Numeral) : Option Double :=
  let (significand, dropped) := takeDigits 0 n.whole
  let fraction := n.fraction.getD []
  let (significand, ignored) := takeDigits significand fraction
  let scale : Int := dropped.length - (fraction.length - ignored.length : Nat)
  let tooLarge := significand ≠ 0 ∧ n.exponent.any fun (negative, _) => !negative
  let magnitude : Option Double := match n.exponentValue? with
    | some exponent => shift (Double.ofInt significand) (scale + exponent)
    | none => if tooLarge then none else some .zero
  magnitude.map fun d => if n.negative then d.negated else d

end Numeral

end TypedRecords.Json
