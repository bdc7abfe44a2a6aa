/-
Decimals read from text.

Plain notation is an optional sign and digits around at most one point, with at least one digit;
underscores after the first digit are skipped.  The whole part has to fit 96 bits.  Digits after the
point are taken while there are at most 28 and the coefficient fits; the first one that does not
rounds the rest, a half away from zero.  Only a short coefficient of 28 places is final at an
underscore: it is cut there instead of rounded.  Where plain notation fails, a power of ten may
follow after an `e`; digits that it moves past the 28th after the point are rounded off.
-/
import TypedRecords.Number.Decimal
import TypedRecords.Number.Word

namespace TypedRecords.Number.Decimal

/-! ### Plain notation -/

/-- Reads the digits before the point, and the digits after it with `none` for each underscore
among them; `point` tells that the point was passed and `started` that there was a digit. -/
def readDigits (point started : Bool) : List Char → Option (List Nat × List (Option Nat))
  | [] => if started then some ([], []) else none
  | c :: cs =>
    match Text.digitValue? c with
    | some digit =>
      (readDigits point true cs).map fun (whole, fraction) =>
        if point then (whole, some digit :: fraction) else (digit :: whole, fraction)
    | none =>
      if c = '.' ∧ point = false then readDigits true started cs
      else if c = '_' ∧ started then
        (readDigits point started cs).map fun (whole, fraction) =>
          if point then (whole, none :: fraction) else (whole, fraction)
      else none

/-- All digits of the coefficient but the last form a number that leaves room for one more digit in
64 bits, with a margin. -/
def isShort (coefficient : Nat) : Bool := coefficient / 10 < (2 ^ 64 - 1) / 10 - 255

/-- Takes digits after the point into a coefficient while they fit; the first that does not rounds
it.  A full coefficient that is rounded up gives up its own last digit. -/
def takeFraction (coefficient scale : Nat) : List (Option Nat) → Option (Nat × Nat)
  | [] => some (coefficient, scale)
  | none :: rest =>
    if scale = 28 ∧ isShort coefficient then some (coefficient, scale)
    else takeFraction coefficient scale rest
  | some digit :: rest =>
    if scale < 28 ∧ coefficient * 10 + digit < 2 ^ 96 then
      takeFraction (coefficient * 10 + digit) (scale + 1) rest
    else if digit < 5 then some (coefficient, scale)
    else if coefficient + 1 < 2 ^ 96 then some (coefficient + 1, scale)
    else if scale = 0 then none
    else some ((coefficient + 5) / 10, scale - 1)

/-- Reads a coefficient and a scale. -/
def readUnsigned (cs : List Char) : Option (Nat × Nat) := do
  let (whole, fraction) ← readDigits false false cs
  let coefficient := Text.ofDigits 10 0 whole
  if coefficient < 2 ^ 96 then takeFraction coefficient 0 fraction else none

/-- Reads plain notation. -/
def readPlain (cs : List Char) : Option Decimal :=
  match cs with
  | '-' :: cs => (readUnsigned cs).bind fun (c, s) => ofParts? (-c) s
  | '+' :: cs => (readUnsigned cs).bind fun (c, s) => ofParts? c s
  | cs => (readUnsigned cs).bind fun (c, s) => ofParts? c s

/-! ### Scientific notation -/

/-- Reads an exponent's digits, a plus sign allowed before them. -/
def readExponent (cs : List Char) : Option Nat :=
  match cs with
  | '+' :: cs => Text.readNat cs
  | cs => Text.readNat cs

/-- A coefficient without its last `places` digits, rounded, a half away from zero. -/
def roundOff (places : Nat) (coefficient : Int) : Int :=
  coefficient.sign * ((coefficient.natAbs + 10 ^ places / 2) / 10 ^ places : Nat)

/-- The decimal times a power of ten: the scale takes what it can, and the coefficient grows or is
rounded off by the rest. -/
def shift (d : Decimal) (exponent : Int) : Option Decimal :=
  let scale := (d.scale : Int) - exponent
  if 28 < exponent.natAbs then none
  else if 28 < scale then ofParts? (roundOff (scale.toNat - 28) d.coefficient) 28
  else ofParts? (d.coefficient * 10 ^ (-scale).toNat) scale.toNat

/-- Reads plain notation followed by `e` or `E` and an exponent. -/
def readScientific (cs : List Char) : Option Decimal :=
  let isMark (c : Char) := c = 'e' || c = 'E'
  match cs.dropWhile (!isMark ·) with
  | [] => none
  | _ :: exponent => do
    let d ← readPlain (cs.takeWhile (!isMark ·))
    match exponent with
    | '-' :: digits => d.shift (-(← readExponent digits))
    | digits => d.shift (← readExponent digits)

/-- Reads a decimal from text. -/
def ofText? (s : String) : Option Decimal :=
  readPlain s.toList <|> readScientific s.toList

example : (ofText? "12.50").map text = some "12.50" := by decide +kernel
example : (ofText? "2.5e-28").map text = some "0.0000000000000000000000000003" := by decide +kernel
example : (ofText? "0.0000000000000000000000000012_9").map text
    = some "0.0000000000000000000000000012" := by decide +kernel
example : ofText? "" = none := by decide +kernel
example : ofText? "1.00000000000000000000000000005x" = none := by decide +kernel

end TypedRecords.Number.Decimal
