/-
The fewest digits that read back.

Every finite double has an interval of reals that round to it; its ends belong to it when the
significand is even.  Of the decimal grids `10 ^ p`, the coarsest one with a point in that interval
gives the shortest digits, and of two points the one nearer to the double (on a tie the larger).
All comparisons are exact, on naturals.
-/
import TypedRecords.Number.Double

namespace TypedRecords.Number

/-- The number `coefficient · 10 ^ exponent`. -/
structure Scientific where
  coefficient : Nat
  exponent : Int
deriving DecidableEq

/-- The largest `k` with `10 ^ k ≤ num / den`, for positive `num` and `den`. -/
def floorLog10 (num den : Nat) : Int :=
  if den ≤ num then (Nat.toDigits 10 (num / den)).length - 1
  else -((Nat.toDigits 10 ((den + num - 1) / num - 1)).length : Int)

namespace Double

/-- Four times the significand and the ends of the rounding interval around it, in quarters of a
unit: below a power of two the neighbour is half as far away. -/
def interval (significand : Nat) (exponent : Int) : Nat × Nat × Nat :=
  let v := 4 * significand
  let low := if significand = 2 ^ 52 ∧ -1074 < exponent then v - 1 else v - 2
  (low, v, v + 2)

/-- The nearer of the two neighbours of the double on the grid `10 ^ p` that lie in its interval. -/
def onGrid? (significand : Nat) (exponent p : Int) : Option Nat :=
  let (low, v, high) := interval significand exponent
  -- One quarter unit is `unitNum / unitDen` grid steps.
  let (unitNum, unitDen) := ratio 1 (exponent - 2)
  let unitNum := unitNum * 10 ^ (-p).toNat
  let unitDen := unitDen * 10 ^ p.toNat
  let inside (d : Nat) : Bool :=
    if significand % 2 = 0 then low * unitNum ≤ d * unitDen && d * unitDen ≤ high * unitNum
    else low * unitNum < d * unitDen && d * unitDen < high * unitNum
  let below := v * unitNum / unitDen
  let above := below + 1
  match inside below, inside above with
  | true, true =>
    if v * unitNum - below * unitDen < above * unitDen - v * unitNum then some below else some above
  | true, false => some below
  | false, true => some above
  | false, false => none

/-- The shortest decimal that reads back as `significand · 2 ^ exponent`: grids are tried from one
digit to seventeen, and seventeen always suffice. -/
def shortest (significand : Nat) (exponent : Int) : Scientific :=
  if significand = 0 then ⟨0, 0⟩
  else
    let (num, den) := ratio significand exponent
    let top := floorLog10 num den
    let grid? (k : Nat) : Option Scientific :=
      (onGrid? significand exponent (top - k)).map fun d => ⟨d, top - k⟩
    ((List.range 17).findSome? grid?).getD ⟨0, 0⟩

end Double

end TypedRecords.Number
