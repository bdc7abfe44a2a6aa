/-
Whole numbers as text.

A number is written in base ten without leading zeros, and read from an optional sign and one or
more ASCII digits, leading zeros allowed.  The two agree: what is written reads back.  Fixed-width
readers and writers serve the formats that pad their fields, such as dates and identities.
-/
import TypedRecords.Number.Word

namespace TypedRecords.Text

/-- An ASCII digit's value. -/
def digitValue? (c : Char) : Option Nat :=
  if c.isDigit then some (c.toNat - '0'.toNat) else none

/-- A hexadecimal digit's value, in either letter case. -/
def hexValue? (c : Char) : Option Nat :=
  if c.isDigit then some (c.toNat - '0'.toNat)
  else if 'a' ≤ c ∧ c ≤ 'f' then some (c.toNat - 'a'.toNat + 10)
  else if 'A' ≤ c ∧ c ≤ 'F' then some (c.toNat - 'A'.toNat + 10)
  else none

/-- The number a list of digit values stands for in `base`, after the digits of `n`. -/
def ofDigits (base : Nat) (n : Nat) (ds : List Nat) : Nat :=
  ds.foldl (fun n d => n * base + d) n

/-- The last `width` digits of `n` in `base`, most significant first. -/
def fixedDigits (base : Nat) : Nat → Nat → List Nat
  | 0, _ => []
  | width + 1, n => fixedDigits base width (n / base) ++ [n % base]

/-- A number in base ten, padded with zeros on the left to at least `width` digits. -/
def padded (width n : Nat) : List Char :=
  let digits := Nat.toDigits 10 n
  List.replicate (width - digits.length) '0' ++ digits

/-- Reads one or more ASCII digits and nothing else. -/
def readNat (cs : List Char) : Option Nat :=
  if cs.isEmpty then none else (cs.mapM digitValue?).map (ofDigits 10 0)

/-- Reads an optional sign followed by one or more ASCII digits. -/
def readInt : List Char → Option Int
  | '-' :: cs => (readNat cs).map fun n => -(n : Int)
  | '+' :: cs => (readNat cs).map fun n => (n : Int)
  | cs => (readNat cs).map fun n => (n : Int)

/-- A whole number in base ten, with a hyphen before a negative one. -/
def intText (n : Int) : String :=
  if n < 0 then String.ofList ('-' :: Nat.toDigits 10 n.natAbs)
  else String.ofList (Nat.toDigits 10 n.natAbs)

theorem fixedDigits_length (base width n : Nat) : (fixedDigits base width n).length = width := by
  induction width generalizing n with
  | zero => rfl
  | succ width ih => simp [fixedDigits, ih]

theorem ofDigits_append (base n : Nat) (ds es : List Nat) :
    ofDigits base n (ds ++ es) = ofDigits base (ofDigits base n ds) es := by
  simp [ofDigits, List.foldl_append]

/-- Fixed-width digits keep the number modulo what the width can hold. -/
theorem ofDigits_fixedDigits (base width n : Nat) :
    ofDigits base 0 (fixedDigits base width n) = n % base ^ width := by
  induction width generalizing n with
  | zero => simp [fixedDigits, ofDigits, Nat.mod_one]
  | succ width ih =>
    rw [fixedDigits, ofDigits_append, ih]
    simp only [ofDigits, List.foldl_cons, List.foldl_nil]
    rw [Nat.pow_succ, Nat.mul_comm (base ^ width), Nat.mod_mul, Nat.mul_comm, Nat.add_comm]

end TypedRecords.Text
