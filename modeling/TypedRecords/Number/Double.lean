/-
Double-precision numbers as their 64 bits.

A double is its IEEE 754 bit pattern: a sign, eleven bits of exponent and fifty-two of fraction.
A finite one stands for `significand · 2 ^ exponent`, and arithmetic is done exactly on that
fraction and rounded once: `ofRatio` gives the double nearest to a quotient of naturals, ties to
the even significand, values too large to infinity.
-/
import TypedRecords.Number.Word

namespace TypedRecords.Number

/-- The quotient rounded to the nearest natural, a tie to the even one. -/
def roundHalfEven (num den : Nat) : Nat :=
  let q := num / den
  let r := num % den
  if 2 * r < den then q else if den < 2 * r then q + 1 else q + q % 2

/-- A double, by its bits. -/
structure Double where
  bits : UInt64
deriving DecidableEq, Inhabited

namespace Double

/-- What a double stands for, its sign apart. -/
inductive Magnitude where
  | nan
  | infinite
  /-- The number `significand · 2 ^ exponent`. -/
  | finite (significand : Nat) (exponent : Int)
deriving DecidableEq

/-- The sign bit is set. -/
def negative (d : Double) : Bool := 2 ^ 63 ≤ d.bits.toNat

/-- The biased exponent. -/
def exponentField (d : Double) : Nat := d.bits.toNat / 2 ^ 52 % 2 ^ 11

/-- The stored part of the significand. -/
def fractionField (d : Double) : Nat := d.bits.toNat % 2 ^ 52

/-- The magnitude the bits encode: with a zero exponent field there is no hidden bit, and a full one
is special. -/
def magnitude (d : Double) : Magnitude :=
  if d.exponentField = 2047 then
    if d.fractionField = 0 then .infinite else .nan
  else if d.exponentField = 0 then .finite d.fractionField (-1074)
  else .finite (2 ^ 52 + d.fractionField) (d.exponentField - 1075)

/-- The double with a sign and the 63 bits below it, infinity when those are too many. -/
def ofMagnitudeBits (negative : Bool) (low : Nat) : Double :=
  ⟨UInt64.ofNat ((if negative then 2 ^ 63 else 0) + min low (2047 * 2 ^ 52))⟩

/-- The largest `k` with `2 ^ k ≤ num / den`, for positive `num` and `den`. -/
def floorLog2 (num den : Nat) : Int :=
  let k : Int := (num.log2 : Int) - den.log2
  if den * 2 ^ k.toNat ≤ num * 2 ^ (-k).toNat then k else k - 1

/-- The double nearest to `num / den`, with the given sign.  The unit in the last place is
`2 ^ unit`; the significand's carry, if rounding gives one, runs into the exponent field as it
should. -/
def ofRatio (negative : Bool) (num den : Nat) : Double :=
  if num = 0 then ofMagnitudeBits negative 0
  else
    let unit := max (floorLog2 num den - 52) (-1074)
    let significand := roundHalfEven (num * 2 ^ (-unit).toNat) (den * 2 ^ unit.toNat)
    ofMagnitudeBits negative ((unit + 1074).toNat * 2 ^ 52 + significand)

/-- The double nearest to a whole number. -/
def ofInt (n : Int) : Double := ofRatio (n < 0) n.natAbs 1

/-- Positive zero. -/
def zero : Double := ⟨0⟩

/-- The one pattern that stands for every not-a-number. -/
def nan : Double := ⟨0x7ff8000000000000⟩

/-- The magnitude of a finite double as a fraction. -/
def ratio (significand : Nat) (exponent : Int) : Nat × Nat :=
  (significand * 2 ^ exponent.toNat, 2 ^ (-exponent).toNat)

/-- The product with a fraction, rounded once; special values keep their kind. -/
def scale (d : Double) (num den : Nat) : Double :=
  match d.magnitude with
  | .finite significand exponent =>
    let (n, m) := ratio significand exponent
    ofRatio d.negative (n * num) (m * den)
  | _ => d

/-- The double is infinite. -/
def isInfinite (d : Double) : Bool := d.magnitude = .infinite

/-- The double is zero, of either sign. -/
def isZero (d : Double) : Bool := d.bits.toNat % 2 ^ 63 = 0

/-- The same magnitude with the sign bit set. -/
def negated (d : Double) : Double := ofMagnitudeBits true (d.bits.toNat % 2 ^ 63)

example : ofInt 1 = ⟨0x3ff0000000000000⟩ := by decide +kernel
example : ofInt 9007199254740993 = ⟨0x4340000000000000⟩ := by decide +kernel
example : ofRatio true 1 10 = ⟨0xbfb999999999999a⟩ := by decide +kernel

end Double

end TypedRecords.Number
