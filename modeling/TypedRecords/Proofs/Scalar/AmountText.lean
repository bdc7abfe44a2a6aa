/-
Amounts have one text each.

A decimal and an amount of money stand in a filter condition as their normal form in plain notation.
The text denotes the number, so two amounts with one text are one number; and one number has one
normal form, so it has one text, whatever the scales it came with.
-/
import TypedRecords.Proofs.Number.Plain
import TypedRecords.Scalar

namespace TypedRecords.Value

open Number (Decimal Denotes Plain)

variable {v w : Value} {a b : Decimal}

theorem conditionText?_of_amount (hv : v.asDecimal? = some a) :
    v.conditionText? = some a.normalize.plain.text := by
  rw [Decimal.text_plain]
  cases v with
  | decimal d =>
      cases hv
      rfl
  | money d =>
      cases hv
      rfl
  | _ => cases hv

/-- An amount points at no entity. -/
theorem conditionValue_of_amount (hv : v.asDecimal? = some a) :
    (Scalar.ofValue v).conditionValue = (v.conditionText?, none) := by
  cases v with
  | decimal d => rfl
  | money d => rfl
  | _ => cases hv

theorem conditionText?_eq_iff (hv : v.asDecimal? = some a) (hw : w.asDecimal? = some b) :
    v.conditionText? = w.conditionText? ↔ a.value = b.value := by
  rw [conditionText?_of_amount hv, conditionText?_of_amount hw]
  constructor
  · intro h
    have hparts := Plain.text_inj (Option.some.inj h)
    rw [← Decimal.value_normalize a, ← Decimal.value_plain, hparts, Decimal.value_plain,
      Decimal.value_normalize]
  · intro h
    rw [(Decimal.normalize_eq_iff a b).mpr h]

/-- **Amounts have one text each**: two of them, decimals or money, share their text exactly when
they are one number, and the text is that number in plain notation with nothing that could go. -/
theorem amounts_have_one_text (hv : v.asDecimal? = some a) (hw : w.asDecimal? = some b) :
    (v.conditionText? = w.conditionText? ↔ a.value = b.value) ∧
    ∃ p : Plain, v.conditionText? = some p.text ∧
      (Scalar.ofValue v).conditionValue = (some p.text, none) ∧ p.Bare ∧
      ∀ number, Denotes p.text number ↔ number = a.value := by
  have htext := conditionText?_of_amount hv
  refine ⟨conditionText?_eq_iff hv hw, a.normalize.plain, htext, ?_, ?_, ?_⟩
  · rw [conditionValue_of_amount hv, htext]
  · exact Decimal.bare_plain a.trimmed_normalize
  · intro number
    rw [Number.denotes_text_iff, Decimal.value_plain, Decimal.value_normalize]

/-- The same debt at scale 28, as a decimal, and at scale 25, as money. -/
theorem amounts_have_one_text_debt :
    let a : Decimal := ⟨-1000, 28, by decide, by decide⟩
    let b : Decimal := ⟨-1, 25, by decide, by decide⟩
    (decimal a).asDecimal? = some a ∧ (money b).asDecimal? = some b ∧
    (decimal a).conditionText? = (money b).conditionText? ∧
    ∃ p : Plain, (decimal a).conditionText? = some p.text ∧ p.Bare ∧
      ∀ number, Denotes p.text number ↔ number = a.value := by
  intro a b
  obtain ⟨hsame, p, htext, -, hbare, hdenotes⟩ :=
    amounts_have_one_text (v := decimal a) (w := money b) (a := a) (b := b) rfl rfl
  refine ⟨rfl, rfl, hsame.mpr ((Decimal.value_eq_iff a b).mpr ?_), p, htext, hbare, hdenotes⟩
  decide

example : (decimal ⟨-1000, 28, by decide, by decide⟩).conditionText?
    = some "-0.0000000000000000000000001" := by decide +kernel

end TypedRecords.Value
