/-
Conversion to a member type is a projection.

A scalar that a member type accepts may come back as another: text as a number, money as a decimal,
a lookup as an identity.  What it comes back as stays as it is when it is converted again, for a
member's value survives the way out to an attribute value and in again.  Only a lookup that points
nowhere does not: it goes out as null, and null comes in as the type's blank value.
-/
import TypedRecords.Proofs.Scalar.Member

namespace TypedRecords

/-! ### Values that are null -/

namespace ScalarType

/-- The value is a lookup that points nowhere. -/
def pointsNowhere : (t : ScalarType) → t.Carrier → Bool
  | reference, r => r.id.isNil
  | _, _ => false

/-- Of the values of the scalar types only a lookup that points nowhere is null. -/
theorem toScalar_eq_null_iff {t : ScalarType} {a : t.Carrier} :
    Member.toScalar a = .null ↔ t.pointsNowhere a = true := by
  cases t with
  | reference =>
      show (if a.id.isNil then Scalar.null else .reference a) = .null ↔ a.id.isNil = true
      by_cases hnil : a.id.isNil = true
      · simp [hnil]
      · simp [hnil]
  | _ => exact ⟨nofun, nofun⟩

theorem ofScalar_null (t : ScalarType) :
    (Member.ofScalar .null : Except ConversionError t.Carrier) = .ok Member.blank := by
  cases t <;> rfl

end ScalarType

namespace MemberType

variable {type : MemberType} {value : type.Carrier}

/-- The value is a lookup that points nowhere, plain or optional. -/
def pointsNowhere : (type : MemberType) → type.Carrier → Bool
  | plain t, a => t.pointsNowhere a
  | optional t, some a => t.pointsNowhere a
  | _, _ => false

theorem toScalar_of_pointsNowhere (h : type.pointsNowhere value = true) :
    type.toScalar value = .null := by
  cases type with
  | plain t => exact ScalarType.toScalar_eq_null_iff.mpr h
  | optional t =>
      cases value with
      | none => rfl
      | some a => exact ScalarType.toScalar_eq_null_iff.mpr h
  | coded set => cases h
  | optionalCoded set => cases h

/-- A value that is null points nowhere, or else is the blank value. -/
theorem null_cases (h : type.toScalar value = .null) :
    type.pointsNowhere value = true ∨ value = type.blank := by
  cases type with
  | plain t => exact Or.inl (ScalarType.toScalar_eq_null_iff.mp h)
  | optional t =>
      cases value with
      | none => exact Or.inr rfl
      | some a => exact Or.inl (ScalarType.toScalar_eq_null_iff.mp h)
  | coded set => cases h
  | optionalCoded set =>
      cases value with
      | none => exact Or.inr rfl
      | some code => cases h

/-- Null comes in as the blank value wherever a value goes out as null. -/
theorem ofScalar_null (h : type.toScalar value = .null) (current : type.Carrier) :
    type.ofScalar current .null = .ok type.blank := by
  cases type with
  | plain t => exact t.ofScalar_null
  | optional t => rfl
  | coded set => cases h
  | optionalCoded set => rfl

/-! ### Out and in again -/

/-- What a member shows once a scalar is written to it. -/
def project (type : MemberType) (current : type.Carrier) (s : Scalar) :
    Except ConversionError Scalar :=
  type.toScalar <$> type.ofScalar current s

/-- A value comes in as it went out, unless it points nowhere. -/
theorem ofScalar_toScalar (current value : type.Carrier) :
    type.ofScalar current (type.toScalar value)
      = .ok (if type.pointsNowhere value then type.blank else value) := by
  by_cases hnull : type.toScalar value = .null
  · rw [hnull, ofScalar_null hnull]
    rcases null_cases hnull with hnowhere | hblank
    · rw [if_pos hnowhere]
    · rw [hblank, ite_self]
  · have hsomewhere : ¬ type.pointsNowhere value = true := fun h =>
      hnull (toScalar_of_pointsNowhere h)
    rw [if_neg hsomewhere]
    exact ofScalar_sent hnull (rfl : (type.toScalar value).sent false = _) current

/-- What a value comes in as shows the same scalar. -/
theorem project_toScalar (current value : type.Carrier) :
    type.project current (type.toScalar value) = .ok (type.toScalar value) := by
  refine map_eq_ok.mpr ⟨_, ofScalar_toScalar current value, ?_⟩
  by_cases h : type.pointsNowhere value = true
  · have hnull := toScalar_of_pointsNowhere h
    rw [if_pos h, blank_null hnull, hnull]
  · rw [if_neg h]

/-- **Conversion to a member type is a projection that survives the wire**: what a scalar comes back
as stays as it is, and a value that is lowered to an attribute value and lifted again is itself, or
blank if it is a lookup that points nowhere. -/
theorem conversion_projects (type : MemberType) (current : type.Carrier) :
    (∀ s out, type.project current s = .ok out → type.project current out = .ok out) ∧
    ∀ value, type.ofScalar current (Scalar.ofValue (type.toScalar value).toValue)
      = .ok (if type.pointsNowhere value then type.blank else value) := by
  refine ⟨fun s out h => ?_, fun value => ?_⟩
  · obtain ⟨value, -, rfl⟩ := map_eq_ok.mp h
    exact project_toScalar current value
  · rw [Scalar.ofValue_toValue]
    exact ofScalar_toScalar current value

/-- A number in text comes back as a number, and an optional lookup that points nowhere as none. -/
theorem conversion_projects_text_and_lookup :
    let number : MemberType := .plain .int32
    let owner : MemberType := .optional .reference
    let nowhere : owner.Carrier := some ⟨"team", .nil⟩
    (number.project (0 : Int32) (.string "+007") = .ok (.int 7) ∧
      number.project (0 : Int32) (.int 7) = .ok (.int 7)) ∧
    owner.ofScalar none (Scalar.ofValue (owner.toScalar nowhere).toValue) = .ok none := by
  intro number owner nowhere
  have hread : number.project (0 : Int32) (.string "+007") = .ok (.int 7) := by decide
  exact ⟨⟨hread, (conversion_projects number (0 : Int32)).1 _ _ hread⟩,
    (conversion_projects owner none).2 nowhere⟩

end MemberType

end TypedRecords
