/-
Slots: the typed scalar members of an entity.

A slot has a name and a member type, plain or optional, one of the scalar types or a closed choice.
An entity's scalar members are the values written to its slots; a slot that was never written holds
its type's blank value.  Writing a scalar goes through the member type, so what a slot holds is
always of its type, and a refused scalar leaves every slot as it was.
-/
import TypedRecords.Scalar.Member
import TypedRecords.Lifecycle

namespace TypedRecords

open Number (Decimal Double)
open Time (Instant)

/-- The scalar types members are made of. -/
inductive ScalarType where
  | bool
  | int32
  | int64
  | double
  | decimal
  | string
  | datetime
  | identity
  | reference
  | money
  | choice
deriving DecidableEq, Inhabited

/-- The values of a scalar type. -/
@[reducible] def ScalarType.Carrier : ScalarType → Type
  | bool => Bool
  | int32 => Int32
  | int64 => Int64
  | double => Double
  | decimal => Decimal
  | string => String
  | datetime => Instant
  | identity => Identity
  | reference => Reference
  | money => Money
  | choice => Choice

instance ScalarType.instMember : (t : ScalarType) → Member t.Carrier
  | bool => inferInstanceAs (Member Bool)
  | int32 => inferInstanceAs (Member Int32)
  | int64 => inferInstanceAs (Member Int64)
  | double => inferInstanceAs (Member Double)
  | decimal => inferInstanceAs (Member Decimal)
  | string => inferInstanceAs (Member String)
  | datetime => inferInstanceAs (Member Instant)
  | identity => inferInstanceAs (Member Identity)
  | reference => inferInstanceAs (Member Reference)
  | money => inferInstanceAs (Member Money)
  | choice => inferInstanceAs (Member Choice)

/-- The types of scalar members. -/
inductive MemberType where
  | plain (t : ScalarType)
  | optional (t : ScalarType)
  /-- A closed choice, stored as its option code. -/
  | coded (set : ChoiceSet)
  /-- A closed choice that may be absent. -/
  | optionalCoded (set : ChoiceSet)
deriving DecidableEq

namespace MemberType

/-- The values of a member type. -/
@[reducible] def Carrier : MemberType → Type
  | plain t => t.Carrier
  | optional t => Option t.Carrier
  | coded set => set.Code
  | optionalCoded set => Option set.Code

/-- The members of this type hold option codes. -/
def isCoded : MemberType → Bool
  | coded _ | optionalCoded _ => true
  | _ => false

/-- The value of a member that was never written. -/
def blank : (type : MemberType) → type.Carrier
  | plain _ => Member.blank
  | optional _ => none
  | coded set => ⟨set.blank, set.blank_mem⟩
  | optionalCoded _ => none

/-- A member's value as a scalar. -/
def toScalar : (type : MemberType) → type.Carrier → Scalar
  | plain _, value => Member.toScalar value
  | optional _, value => Member.toScalar value
  | coded _, value => .choice ⟨value.1⟩
  | optionalCoded _, some value => .choice ⟨value.1⟩
  | optionalCoded _, none => .null

/-- The value a member gets from a scalar; a closed choice that has to be there keeps its `current`
value when the scalar is null. -/
def ofScalar : (type : MemberType) → (current : type.Carrier) → Scalar →
    Except ConversionError type.Carrier
  | plain _, _, s => Member.ofScalar s
  | optional _, _, s => Member.ofScalar s
  | coded set, current, s => (·.getD current) <$> set.ofScalar s
  | optionalCoded set, _, s => set.ofScalar s

end MemberType

/-- A typed scalar member. -/
structure Slot where
  name : String
  type : MemberType
deriving DecidableEq

/-- A slot with its value. -/
structure Cell where
  slot : Slot
  value : slot.type.Carrier

/-- The scalar members of an entity: the slots that were written, the latest first. -/
structure Members where
  cells : List Cell := []
deriving Inhabited

namespace Members

/-- The value a slot holds among `cells`. -/
def find (slot : Slot) : List Cell → slot.type.Carrier
  | [] => slot.type.blank
  | cell :: rest => if h : cell.slot = slot then h ▸ cell.value else find slot rest

/-- The value a slot holds. -/
def get (members : Members) (slot : Slot) : slot.type.Carrier := find slot members.cells

/-- Writes a value to a slot. -/
def set (members : Members) (slot : Slot) (value : slot.type.Carrier) : Members :=
  ⟨⟨slot, value⟩ :: members.cells.filter (·.slot ≠ slot)⟩

/-- A slot's value as a scalar. -/
def read (members : Members) (slot : Slot) : Scalar := slot.type.toScalar (members.get slot)

/-- Writes a scalar to a slot. -/
def write (members : Members) (slot : Slot) (s : Scalar) : Except ConversionError Members :=
  members.set slot <$> slot.type.ofScalar (members.get slot) s

@[simp] theorem get_set_self (members : Members) (slot : Slot) (value : slot.type.Carrier) :
    (members.set slot value).get slot = value := by
  simp [get, set, find]

theorem find_filter_ne {slot other : Slot} (h : other ≠ slot) (cells : List Cell) :
    find slot (cells.filter (·.slot ≠ other)) = find slot cells := by
  induction cells with
  | nil => rfl
  | cons cell rest ih =>
    by_cases hc : cell.slot = other
    · have hn : cell.slot ≠ slot := fun e => h (hc.symm.trans e)
      rw [List.filter_cons_of_neg (by simpa using hc), ih, find, dif_neg hn]
    · rw [List.filter_cons_of_pos (by simpa using hc), find, find, ih]

theorem get_set_of_ne {slot other : Slot} (h : other ≠ slot) (members : Members)
    (value : other.type.Carrier) : (members.set other value).get slot = members.get slot := by
  simp only [get, set, find, dif_neg h]
  exact find_filter_ne h _

end Members

end TypedRecords
