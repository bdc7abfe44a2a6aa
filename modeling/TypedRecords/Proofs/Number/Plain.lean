/-
Numbers in plain notation.

Plain notation is a sign, a number before the point and digits after it; without such digits there
is no point, and there never is an exponent.  `Plain` holds these parts, and from a text they can be
told again, so a text denotes one number at most.  A decimal is written in plain notation, and a
trimmed one leaves nothing in its text that could go.
-/
import TypedRecords.Proofs.Number.Decimal
import TypedRecords.Proofs.Text.Digits

namespace TypedRecords.Number

open Text (fixedDigits ofDigits padded)

/-! ### Digits around the point -/

/-- A padded number shows what stands before its last digits, and then these. -/
theorem padded_eq_append (scale n : Nat) :
    padded (scale + 1) n
      = Nat.toDigits 10 (n / 10 ^ scale) ++ (fixedDigits 10 scale n).map Nat.digitChar := by
  induction scale generalizing n with
  | zero =>
      have hone : 1 - (Nat.toDigits 10 n).length = 0 :=
        Nat.sub_eq_zero_of_le Nat.length_toDigits_pos
      simp [padded, hone, fixedDigits]
  | succ scale ih =>
      rw [Text.padded_succ (by omega), ih, fixedDigits, List.map_append, List.append_assoc,
        Nat.div_div_eq_div_mul, ← Nat.pow_succ']
      rfl

theorem positional_eq (n scale : Nat) :
    positional n scale = Nat.toDigits 10 (n / 10 ^ scale)
      ++ if scale = 0 then [] else '.' :: (fixedDigits 10 scale n).map Nat.digitChar := by
  have hwhole : (padded (scale + 1) n).length - scale
      = (Nat.toDigits 10 (n / 10 ^ scale)).length := by
    simp [padded_eq_append, Text.fixedDigits_length]
  unfold positional
  simp only [hwhole]
  by_cases hscale : scale = 0
  · simp [hscale, padded_eq_append, fixedDigits]
  · simp [hscale, padded_eq_append]

/-! ### Parts of a number -/

/-- A number in plain notation: its sign, the number before the point and the digits after it. -/
structure Plain where
  negative : Bool
  whole : Nat
  fraction : List Nat
  digits : ∀ d ∈ fraction, d < 10

namespace Plain

variable {p q : Plain}

/-- The number that is meant. -/
def value (p : Plain) : ℚ :=
  (if p.negative then -1 else 1)
    * (p.whole + (ofDigits 10 0 p.fraction : ℚ) / 10 ^ p.fraction.length)

/-- The point and the digits after it. -/
def tail (p : Plain) : List Char :=
  if p.fraction = [] then [] else '.' :: p.fraction.map Nat.digitChar

/-- The number as it is written. -/
def text (p : Plain) : String :=
  String.ofList
    ((if p.negative then ['-'] else []) ++ (Nat.toDigits 10 p.whole ++ p.tail))

/-- Nothing that is written could go. -/
structure Bare (p : Plain) : Prop where
  /-- No zero ends the digits after the point. -/
  no_last_zero : p.fraction.getLast? ≠ some 0
  /-- A whole number has no point. -/
  no_idle_point {n : ℤ} : p.value = n → p.fraction = []
  /-- Zero has no sign. -/
  no_idle_sign : p.negative = true → p.value ≠ 0

theorem takeWhile_tail (p : Plain) : p.tail.takeWhile Char.isDigit = [] := by
  unfold tail
  by_cases h : p.fraction = []
  · rw [if_pos h]
    rfl
  · rw [if_neg h]
    rfl

/-- The digits before the point end where the point, or nothing, stands. -/
theorem takeWhile_body (p : Plain) :
    (Nat.toDigits 10 p.whole ++ p.tail).takeWhile Char.isDigit = Nat.toDigits 10 p.whole := by
  have hdigits : ∀ c ∈ Nat.toDigits 10 p.whole, c.isDigit = true := fun c hc =>
    Nat.isDigit_of_mem_toDigits (by decide) (by decide) hc
  rw [List.takeWhile_append_of_pos hdigits, takeWhile_tail, List.append_nil]

theorem fraction_eq_of_tail_eq (h : p.tail = q.tail) : p.fraction = q.fraction := by
  unfold tail at h
  by_cases hp : p.fraction = [] <;> by_cases hq : q.fraction = []
  · rw [hp, hq]
  · simp [hp, hq] at h
  · simp [hp, hq] at h
  · rw [if_neg hp, if_neg hq] at h
    have hread (r : Plain) :
        (r.fraction.map Nat.digitChar).mapM Text.digitValue? = some r.fraction :=
      Text.mapM_map_eq_some fun d hd => Text.digitValue?_digitChar (r.digits d hd)
    apply Option.some.inj
    rw [← hread p, ← hread q, (List.cons.inj h).2]

/-- A sign is no digit. -/
theorem hyphen_cons_ne_body (cs : List Char) (p : Plain) :
    '-' :: cs ≠ Nat.toDigits 10 p.whole ++ p.tail := by
  intro h
  have hnone : ('-' :: cs).takeWhile Char.isDigit = [] := rfl
  rw [h, takeWhile_body] at hnone
  exact Nat.toDigits_ne_nil hnone

/-- Only a negative number starts with a sign. -/
theorem negative_iff (p : Plain) : p.negative = true ↔ p.text.toList.head? = some '-' := by
  unfold text
  rw [String.toList_ofList]
  by_cases h : p.negative = true
  · simp [h]
  · rw [if_neg h, List.nil_append]
    constructor
    · intro hneg
      exact absurd hneg h
    · intro hhead
      obtain ⟨cs, hcs⟩ := List.head?_eq_some_iff.mp hhead
      exact absurd hcs.symm (hyphen_cons_ne_body cs p)

/-- The parts of a number can be told from its text. -/
theorem text_inj (h : p.text = q.text) : p = q := by
  have hsign : p.negative = q.negative :=
    Bool.eq_iff_iff.mpr (by rw [negative_iff, h, negative_iff])
  have h := String.ofList_injective h
  rw [hsign] at h
  have hbody := List.append_cancel_left h
  have hwhole : Nat.toDigits 10 p.whole = Nat.toDigits 10 q.whole := by
    rw [← takeWhile_body, hbody, takeWhile_body]
  rw [hwhole] at hbody
  have hfraction := fraction_eq_of_tail_eq (List.append_cancel_left hbody)
  have hwhole : p.whole = q.whole := by
    apply Option.some.inj
    rw [← Text.readNat_toDigits, hwhole, Text.readNat_toDigits]
  cases p
  cases q
  cases hsign
  cases hwhole
  cases hfraction
  rfl

end Plain

/-- The text is the number in plain notation. -/
def Denotes (text : String) (number : ℚ) : Prop := ∃ p : Plain, p.text = text ∧ p.value = number

/-- A text denotes the number that it was written for and no other. -/
theorem denotes_text_iff (p : Plain) (number : ℚ) : Denotes p.text number ↔ number = p.value := by
  constructor
  · rintro ⟨q, htext, rfl⟩
    rw [Plain.text_inj htext]
  · rintro rfl
    exact ⟨p, rfl, rfl⟩

/-! ### Decimals in plain notation -/

namespace Decimal

/-- A decimal's sign, the number before the point and the digits of its scale. -/
def plain (d : Decimal) : Plain where
  negative := d.coefficient < 0
  whole := d.coefficient.natAbs / 10 ^ d.scale
  fraction := fixedDigits 10 d.scale d.coefficient.natAbs
  digits := fun _ h => Text.lt_of_mem_fixedDigits (by decide) h

theorem fraction_plain_eq_nil_iff (d : Decimal) : d.plain.fraction = [] ↔ d.scale = 0 := by
  rw [← List.length_eq_zero_iff, show d.plain.fraction.length = d.scale from
    Text.fixedDigits_length 10 d.scale _]

theorem text_plain (d : Decimal) : d.plain.text = d.text := by
  have htail : d.plain.tail = if d.scale = 0 then []
      else '.' :: (fixedDigits 10 d.scale d.coefficient.natAbs).map Nat.digitChar := by
    unfold Plain.tail
    simp only [fraction_plain_eq_nil_iff]
    rfl
  unfold Plain.text text
  rw [htail, positional_eq]
  by_cases h : d.coefficient < 0
  · simp [plain, h]
  · simp [plain, h]

theorem sign_mul_natAbs (d : Decimal) :
    (if d.plain.negative then -1 else 1) * (d.coefficient.natAbs : ℚ) = d.coefficient := by
  by_cases h : d.coefficient < 0
  · have habs : (d.coefficient.natAbs : ℤ) = -d.coefficient := by omega
    have hsign : d.plain.negative = true := decide_eq_true h
    rw [if_pos hsign, ← Int.cast_natCast, habs, Int.cast_neg, neg_mul_neg, one_mul]
  · have habs : (d.coefficient.natAbs : ℤ) = d.coefficient := by omega
    have hsign : ¬ d.plain.negative = true := by simpa [plain] using h
    rw [if_neg hsign, ← Int.cast_natCast, habs, one_mul]

theorem value_plain (d : Decimal) : d.plain.value = d.value := by
  have hpow : (10 : ℚ) ^ d.scale ≠ 0 := by positivity
  have hparts : ((d.coefficient.natAbs / 10 ^ d.scale : ℕ) : ℚ)
      + ((d.coefficient.natAbs % 10 ^ d.scale : ℕ) : ℚ) / 10 ^ d.scale
      = d.coefficient.natAbs / 10 ^ d.scale := by
    rw [eq_div_iff hpow, add_mul, div_mul_cancel₀ _ hpow, mul_comm]
    exact_mod_cast Nat.div_add_mod d.coefficient.natAbs (10 ^ d.scale)
  unfold Plain.value
  rw [show d.plain.whole = d.coefficient.natAbs / 10 ^ d.scale from rfl,
    show d.plain.fraction = fixedDigits 10 d.scale d.coefficient.natAbs from rfl,
    Text.fixedDigits_length, Text.ofDigits_fixedDigits, hparts, mul_div_assoc', sign_mul_natAbs]
  rfl

/-- A trimmed decimal leaves nothing in its text that could go. -/
theorem bare_plain {d : Decimal} (h : d.Trimmed) : d.plain.Bare where
  no_last_zero := by
    show (fixedDigits 10 d.scale d.coefficient.natAbs).getLast? ≠ some 0
    rcases h with hscale | hdigit
    · simp [hscale, fixedDigits]
    · cases d.scale with
      | zero => simp [fixedDigits]
      | succ scale =>
          rw [fixedDigits, List.getLast?_concat]
          intro hzero
          have := Option.some.inj hzero
          omega
  no_idle_point hn := by
    rw [value_plain] at hn
    rw [fraction_plain_eq_nil_iff]
    exact h.scale_eq_zero_of_whole hn
  no_idle_sign hsign := by
    have hneg : d.coefficient < 0 := of_decide_eq_true hsign
    have hne : (d.coefficient : ℚ) ≠ 0 := by exact_mod_cast hneg.ne
    rw [value_plain]
    exact div_ne_zero hne (by positivity)

end Decimal

end TypedRecords.Number
