/-
Members read back what they write.

A member that is not null goes out as its own scalar, or as an option code when its field asks for
one.  `Member.Faithful` says that a type reads its value back from either, and every scalar type is
faithful, optional types with it; closed choices are read back from the code they stand for.  What a
member holds when it is null cannot come back, for nothing is sent, but then a fresh member of its
type reads as null too.
-/
import TypedRecords.Scalar.Slot
import TypedRecords.Proofs.Outcome

namespace TypedRecords

/-! ### Option codes -/

namespace Scalar

/-- A 64-bit number is an option code when it fits one. -/
theorem toChoice_bigint {n : Int64} {out : Scalar} (h : (bigint n).toChoice = .ok out) :
    ∃ code, Number.int32? n.toInt = some code ∧ out = .choice ⟨code⟩ := by
  simp only [toChoice] at h
  cases hcode : Number.int32? n.toInt with
  | none =>
      rw [hcode] at h
      cases h
  | some code =>
      rw [hcode] at h
      cases h
      exact ⟨code, rfl, rfl⟩

/-- A scalar that can be an option code is one, unless it is null. -/
theorem choice_of_toChoice {s out : Scalar} (hs : s ≠ .null) (h : s.toChoice = .ok out) :
    ∃ c, out = .choice c := by
  cases s with
  | null => exact absurd rfl hs
  | choice c =>
      cases h
      exact ⟨c, rfl⟩
  | int n =>
      cases h
      exact ⟨⟨n⟩, rfl⟩
  | bigint n =>
      obtain ⟨code, -, rfl⟩ := toChoice_bigint h
      exact ⟨⟨code⟩, rfl⟩
  | _ => cases h

/-- An option code stays as it is. -/
theorem toChoice_idem {s out : Scalar} (h : s.toChoice = .ok out) : out.toChoice = .ok out := by
  by_cases hs : s = .null
  · subst hs
    cases h
    rfl
  · obtain ⟨c, rfl⟩ := choice_of_toChoice hs h
    rfl

/-- A scalar as a field sends it, that asks for an option code or not. -/
def sent (isChoice : Bool) (s : Scalar) : Except ConversionError Scalar :=
  if isChoice then s.toChoice else .ok s

/-- An option code is sent as it is. -/
theorem sent_choice {isChoice : Bool} {c : Choice} {out : Scalar}
    (h : (choice c).sent isChoice = .ok out) : out = choice c := by
  cases isChoice with
  | true => exact (Except.ok.inj h).symm
  | false => exact (Except.ok.inj h).symm

/-- Null is sent as it is. -/
theorem sent_null {isChoice : Bool} {out : Scalar} (h : null.sent isChoice = .ok out) :
    out = null := by
  cases isChoice with
  | true => exact (Except.ok.inj h).symm
  | false => exact (Except.ok.inj h).symm

/-- A lookup is sent as it is, or not at all: it is no option code. -/
theorem sent_reference {isChoice : Bool} {r : Reference} {out : Scalar}
    (h : (reference r).sent isChoice = .ok out) : out = reference r := by
  cases isChoice with
  | true => cases h
  | false => exact (Except.ok.inj h).symm

/-- What a field sent comes in unchanged through the same field. -/
theorem sent_idem {isChoice : Bool} {s out : Scalar} (h : s.sent isChoice = .ok out) :
    out.sent isChoice = .ok out := by
  cases isChoice with
  | true => exact toChoice_idem h
  | false => rfl

end Scalar

/-! ### Faithful types -/

open Number (Decimal Double)
open Time (Instant)

/-- A member type that reads its values back. -/
class Member.Faithful (α : Type) [Member α] : Prop where
  /-- A value comes back from its scalar. -/
  ofScalar_toScalar (a : α) : Member.toScalar a ≠ .null →
    Member.ofScalar (Member.toScalar a) = .ok a
  /-- A value comes back from its option code. -/
  ofScalar_choice (a : α) (c : Choice) : (Member.toScalar a).toChoice = .ok (.choice c) →
    Member.ofScalar (.choice c) = .ok a
  /-- A value that is null is so in a fresh member. -/
  blank_null (a : α) : Member.toScalar a = .null → Member.toScalar (Member.blank : α) = .null

open Member (Faithful)

instance : Faithful Bool := ⟨fun _ _ => rfl, nofun, nofun⟩

instance : Faithful Int32 where
  ofScalar_toScalar _ _ := rfl
  ofScalar_choice _ _ h := by
    cases h
    rfl
  blank_null := nofun

/-- A 64-bit code is the widening of the 32-bit one it goes out as. -/
theorem toInt64_of_int32? {n : Int64} {code : Int32} (h : Number.int32? n.toInt = some code) :
    code.toInt64 = n := by
  apply Int64.toInt_inj.mp
  rw [Int32.toInt_toInt64]
  exact Number.toInt_of_int32? h

instance : Faithful Int64 where
  ofScalar_toScalar _ _ := rfl
  ofScalar_choice n c h := by
    obtain ⟨code, hcode, hc⟩ := Scalar.toChoice_bigint h
    cases hc
    show Except.ok code.toInt64 = Except.ok n
    rw [toInt64_of_int32? hcode]
  blank_null := nofun

instance : Faithful Double := ⟨fun _ _ => rfl, nofun, nofun⟩

instance : Faithful Decimal := ⟨fun _ _ => rfl, nofun, nofun⟩

instance : Faithful String := ⟨fun _ _ => rfl, nofun, nofun⟩

instance : Faithful Instant := ⟨fun _ _ => rfl, nofun, nofun⟩

instance : Faithful Identity := ⟨fun _ _ => rfl, nofun, nofun⟩

instance : Faithful Money := ⟨fun _ _ => rfl, nofun, nofun⟩

instance : Faithful Choice where
  ofScalar_toScalar _ _ := rfl
  ofScalar_choice _ _ h := by
    cases h
    rfl
  blank_null := nofun

/-- A lookup that points nowhere is null, and so is a fresh one. -/
instance : Faithful Reference where
  ofScalar_toScalar r h := by
    have hr : Member.toScalar r = if r.id.isNil then Scalar.null else .reference r := rfl
    by_cases hnil : r.id.isNil = true
    · rw [hr, if_pos hnil] at h
      exact absurd rfl h
    · rw [hr, if_neg hnil]
      rfl
  ofScalar_choice r c h := by
    have h : (if r.id.isNil then Scalar.null else .reference r).toChoice = .ok (.choice c) := h
    split at h
    · cases h
    · cases h
  blank_null _ _ := rfl

/-- An optional type is as faithful as the type it holds. -/
instance {α : Type} [Member α] [Faithful α] : Faithful (Option α) where
  ofScalar_toScalar a h := by
    cases a with
    | none => exact absurd rfl h
    | some a =>
        have hsome : Member.toScalar (some a) = Member.toScalar a := rfl
        rw [hsome] at h ⊢
        have ha := Faithful.ofScalar_toScalar a h
        cases hs : Member.toScalar a with
        | null => exact absurd hs h
        | _ =>
            rw [hs] at ha
            exact map_eq_ok.mpr ⟨a, ha, rfl⟩
  ofScalar_choice a c h := by
    cases a with
    | none => cases h
    | some a => exact map_eq_ok.mpr ⟨a, Faithful.ofScalar_choice a c h, rfl⟩
  blank_null _ _ := rfl

instance ScalarType.instFaithful : (t : ScalarType) → Faithful t.Carrier
  | bool => inferInstanceAs (Faithful Bool)
  | int32 => inferInstanceAs (Faithful Int32)
  | int64 => inferInstanceAs (Faithful Int64)
  | double => inferInstanceAs (Faithful Double)
  | decimal => inferInstanceAs (Faithful Decimal)
  | string => inferInstanceAs (Faithful String)
  | datetime => inferInstanceAs (Faithful Instant)
  | identity => inferInstanceAs (Faithful Identity)
  | reference => inferInstanceAs (Faithful Reference)
  | money => inferInstanceAs (Faithful Money)
  | choice => inferInstanceAs (Faithful Choice)

/-- A faithful type reads back what it sent. -/
theorem Member.ofScalar_sent {α : Type} [Member α] [Faithful α] {a : α} {isChoice : Bool}
    {out : Scalar} (hnull : Member.toScalar a ≠ .null)
    (h : (Member.toScalar a).sent isChoice = .ok out) : Member.ofScalar out = .ok a := by
  cases isChoice with
  | true =>
      obtain ⟨c, rfl⟩ := Scalar.choice_of_toChoice hnull h
      exact Faithful.ofScalar_choice a c h
  | false =>
      cases h
      exact Faithful.ofScalar_toScalar a hnull

/-! ### Every member type -/

namespace ChoiceSet

/-- The code of a member of the set stands for it. -/
theorem ofScalar_code {set : ChoiceSet} (code : set.Code) :
    set.ofScalar (.choice ⟨code.1⟩) = .ok (some code) := by
  have hcode : set.ofCode? code.1 = some code := dif_pos code.2
  unfold ofScalar
  refine bind_eq_ok.mpr ⟨.choice ⟨code.1⟩, rfl, ?_⟩
  simp only [hcode]

end ChoiceSet

namespace MemberType

/-- **A member reads back what it sent**, whatever it held before. -/
theorem ofScalar_sent {type : MemberType} {value : type.Carrier} {isChoice : Bool} {out : Scalar}
    (hnull : type.toScalar value ≠ .null) (h : (type.toScalar value).sent isChoice = .ok out)
    (current : type.Carrier) : type.ofScalar current out = .ok value := by
  cases type with
  | plain t => exact Member.ofScalar_sent hnull h
  | optional t => exact Member.ofScalar_sent hnull h
  | coded set =>
      obtain rfl := Scalar.sent_choice h
      show (·.getD current) <$> set.ofScalar (.choice ⟨value.1⟩) = .ok value
      rw [ChoiceSet.ofScalar_code]
      rfl
  | optionalCoded set =>
      cases value with
      | none => exact absurd rfl hnull
      | some code =>
          obtain rfl := Scalar.sent_choice h
          exact ChoiceSet.ofScalar_code code

/-- A fresh member is null if any of its type is. -/
theorem blank_null {type : MemberType} {value : type.Carrier}
    (h : type.toScalar value = .null) : type.toScalar type.blank = .null := by
  cases type with
  | plain t => exact @Faithful.blank_null t.Carrier _ _ value h
  | optional t => rfl
  | coded set => cases h
  | optionalCoded set => rfl

end MemberType

end TypedRecords
