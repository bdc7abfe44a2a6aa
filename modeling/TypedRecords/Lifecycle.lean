/-
The lifecycle of a record and the closed choices it is one of.

A closed choice is a set of option codes under one name; a code outside the set does not stand for
anything.  The lifecycle states are such a set, each with the status code a record gets in it when
none is given.
-/
import TypedRecords.Scalar

namespace TypedRecords

/-- A closed set of option codes. -/
structure ChoiceSet where
  name : String
  codes : List Int32
  /-- The code of a fresh member. -/
  blank : Int32
  blank_mem : blank ∈ codes
deriving DecidableEq

namespace ChoiceSet

/-- One of the codes of a set. -/
abbrev Code (set : ChoiceSet) : Type := { code : Int32 // code ∈ set.codes }

/-- The member of the set with a code. -/
def ofCode? (set : ChoiceSet) (code : Int32) : Option set.Code :=
  if h : code ∈ set.codes then some ⟨code, h⟩ else none

/-- Reads a scalar as one of the codes; null stands for none of them. -/
def ofScalar (set : ChoiceSet) (s : Scalar) : Except ConversionError (Option set.Code) := do
  match ← s.toChoice with
  | .choice c =>
    match set.ofCode? c.code with
    | some code => .ok (some code)
    | none => .error ⟨set.name, .choice⟩
  | _ => .ok none

end ChoiceSet

/-- The state a record is in. -/
inductive Lifecycle where
  | unknown
  | active
  | inactive
  | disabled
deriving DecidableEq, Inhabited

namespace Lifecycle

/-- The code of a state. -/
def code : Lifecycle → Int32
  | unknown => -1
  | active => 0
  | inactive => 1
  | disabled => 2

/-- The state with a code. -/
def ofCode? (code : Int32) : Option Lifecycle :=
  [unknown, active, inactive, disabled].find? (·.code = code)

/-- The status code of a state when none is given. -/
def defaultStatus : Lifecycle → Int32
  | active => 1
  | _ => 2

/-- The states as a closed choice, unknown at first. -/
def choices : ChoiceSet := ⟨"EntityState", [-1, 0, 1, 2], -1, by decide⟩

theorem ofCode?_code (state : Lifecycle) : ofCode? state.code = some state := by
  cases state <;> decide

end Lifecycle

end TypedRecords
