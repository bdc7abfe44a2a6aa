/-
Condition texts read back.

A filter condition holds its value as text.  A truth value, a whole number, an identity or a
timestamp is read back from its text by the member type it came from, a timestamp to the second; so
two values of one type ask for the same records only when a reader could not tell them apart either.
-/
import TypedRecords.Proofs.Identity
import TypedRecords.Proofs.Time.Rfc3339
import TypedRecords.Scalar.Member

namespace TypedRecords.Member

open Time (Instant)

section

variable {α : Type} [Member α]

/-- The text of a member's value in a filter condition. -/
def conditionText? (a : α) : Option String := (toScalar a).toValue.conditionText?

/-- The text of a member's value reads back as what the text keeps of the value. -/
def ReadsBack (kept : α → α) (a : α) : Prop :=
  ∃ text, conditionText? a = some text ∧ ofScalar (.string text) = .ok (kept a)

/-- The texts of the members with `P` read back, and tell them apart as far as they are kept. -/
structure Legible (P : α → Prop) (kept : α → α) : Prop where
  readsBack {a : α} : P a → ReadsBack kept a
  same_text_iff {a b : α} : P a → P b → (conditionText? a = conditionText? b ↔ kept a = kept b)

/-- Texts that read back differ unless the same is kept, so they tell all apart that they can when
they show nothing but what they keep. -/
theorem Legible.of_readsBack {P : α → Prop} {kept : α → α}
    (hread : ∀ a, P a → ReadsBack kept a)
    (hkept : ∀ a, conditionText? (kept a) = conditionText? a) : Legible P kept where
  readsBack {a} ha := hread a ha
  same_text_iff {a b} ha hb := by
    constructor
    · intro htext
      obtain ⟨text, htexta, hreada⟩ := hread a ha
      obtain ⟨text', htextb, hreadb⟩ := hread b hb
      obtain rfl : text = text' :=
        Option.some.inj (htexta.symm.trans (htext.trans htextb))
      exact Except.ok.inj (hreada.symm.trans hreadb)
    · intro hsame
      rw [← hkept a, hsame, hkept b]

end

theorem readsBack_bool (b : Bool) : ReadsBack id b := by
  cases b with
  | false => exact ⟨"false", rfl, rfl⟩
  | true => exact ⟨"true", rfl, rfl⟩

theorem readsBack_int32 (n : Int32) : ReadsBack id n := by
  refine ⟨Text.intText n.toInt, rfl, ?_⟩
  show (Scalar.string _).orRefuse "i32" ((Text.readInt _).bind Number.int32?) = .ok n
  rw [Text.readInt_intText, Option.bind_some, Number.int32?_toInt]
  rfl

theorem readsBack_int64 (n : Int64) : ReadsBack id n := by
  refine ⟨Text.intText n.toInt, rfl, ?_⟩
  show (Scalar.string _).orRefuse "i64" ((Text.readInt _).bind Number.int64?) = .ok n
  rw [Text.readInt_intText, Option.bind_some, Number.int64?_toInt]
  rfl

theorem readsBack_identity (key : Identity) : ReadsBack id key := by
  refine ⟨key.canonical, rfl, ?_⟩
  show (Scalar.string _).orRefuse "identity" (Identity.ofText? _) = .ok key
  rw [Identity.ofText?_of_writes (Identity.writes_canonical key)]
  rfl

theorem readsBack_instant {t : Instant} (h : t.HasPlainYear) : ReadsBack Instant.cut t := by
  refine ⟨t.toTheSecond, rfl, ?_⟩
  show (Scalar.string _).orRefuse "datetime" (Instant.ofText? _) = .ok t.cut
  rw [Instant.ofText?_toTheSecond h]
  rfl

-- In the middle of a leap second.
example : ReadsBack Instant.cut ⟨1483228799, 1500000000, by decide, by decide⟩ :=
  ⟨"2016-12-31T23:59:60Z", by decide +kernel, by decide +kernel⟩

end TypedRecords.Member
