/-
Whole numbers that have to fit a machine word.

A conversion between widths is exact or refused: each function below gives the word that stands for
the number, and nothing when no word of that width does.
-/

-- A power is the core library's, whatever other library is in scope.
attribute [instance (high)] instPowNat
attribute [default_instance (high)] instPowNat

namespace TypedRecords.Number

/-- The 32-bit signed word for `n`, when `n` fits. -/
def int32? (n : Int) : Option Int32 :=
  if -2 ^ 31 ≤ n ∧ n < 2 ^ 31 then some (Int32.ofInt n) else none

/-- The 64-bit signed word for `n`, when `n` fits. -/
def int64? (n : Int) : Option Int64 :=
  if -2 ^ 63 ≤ n ∧ n < 2 ^ 63 then some (Int64.ofInt n) else none

/-- The 32-bit unsigned word for `n`, when `n` fits. -/
def uint32? (n : Nat) : Option UInt32 :=
  if n < 2 ^ 32 then some (UInt32.ofNat n) else none

/-- The 64-bit unsigned word for `n`, when `n` fits. -/
def uint64? (n : Nat) : Option UInt64 :=
  if n < 2 ^ 64 then some (UInt64.ofNat n) else none

theorem toInt_of_int32? {n : Int} {w : Int32} (h : int32? n = some w) : w.toInt = n := by
  unfold int32? at h
  split at h
  · rename_i hn
    cases h
    exact Int32.toInt_ofInt_of_le (by omega) (by omega)
  · cases h

theorem toInt_of_int64? {n : Int} {w : Int64} (h : int64? n = some w) : w.toInt = n := by
  unfold int64? at h
  split at h
  · rename_i hn
    cases h
    exact Int64.toInt_ofInt_of_le (by omega) (by omega)
  · cases h

theorem int32?_toInt (w : Int32) : int32? w.toInt = some w := by
  rw [int32?, if_pos ⟨Int32.le_toInt w, Int32.toInt_lt w⟩, Int32.ofInt_toInt]

theorem int64?_toInt (w : Int64) : int64? w.toInt = some w := by
  rw [int64?, if_pos ⟨Int64.le_toInt w, Int64.toInt_lt w⟩, Int64.ofInt_toInt]

end TypedRecords.Number
