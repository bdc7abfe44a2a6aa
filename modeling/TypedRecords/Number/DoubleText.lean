/-
Doubles in plain notation.

A double is written with the fewest digits that read back, never with an exponent: zeros fill the
places between the digits and the point.  A whole number has no point, a negative zero keeps its
sign, and the special values are `NaN`, `inf` and `-inf`.
-/
import TypedRecords.Number.Shortest
import TypedRecords.Number.Positional

namespace TypedRecords.Number

/-- The same number as a coefficient and a scale, without zeros after the point. -/
def Scientific.fraction (s : Scientific) : Int × Nat :=
  dropZeros (s.coefficient * 10 ^ s.exponent.toNat) (-s.exponent).toNat

namespace Double

/-- A double in plain notation. -/
def text (d : Double) : String :=
  let sign (cs : List Char) := String.ofList (if d.negative then '-' :: cs else cs)
  match d.magnitude with
  | .nan => "NaN"
  | .infinite => sign "inf".toList
  | .finite significand exponent =>
    let (coefficient, scale) := (shortest significand exponent).fraction
    sign (positional coefficient.natAbs scale)

end Double

end TypedRecords.Number
