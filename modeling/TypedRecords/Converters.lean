/-
Converters: functions on scalars, one for each kind at most.

A converter runs on every scalar of its kind as it passes between records and members, and may
refuse it.  The table tells with each result whether a converter ran.
-/
import TypedRecords.Scalar

namespace TypedRecords

open Scalar (Kind)

/-- A conversion that may refuse. -/
abbrev Converter := Scalar → Except ConversionError Scalar

/-- The converters registered by kind. -/
structure Converters where
  find? : Kind → Option Converter := fun _ => none
deriving Inhabited

namespace Converters

/-- No converters. -/
def empty : Converters := {}

/-- Registers a converter for a kind, in place of any before. -/
def register (table : Converters) (kind : Kind) (converter : Converter) : Converters :=
  ⟨fun k => if k = kind then some converter else table.find? k⟩

/-- Drops the converter of a kind. -/
def unregister (table : Converters) (kind : Kind) : Converters :=
  ⟨fun k => if k = kind then none else table.find? k⟩

/-- A kind has a converter. -/
def contains (table : Converters) (kind : Kind) : Bool := (table.find? kind).isSome

/-- The number of kinds with a converter. -/
def size (table : Converters) : Nat := Kind.all.countP table.contains

/-- The scalar as its kind's converter gives it, and whether there was one. -/
def apply (table : Converters) (s : Scalar) : Except ConversionError (Scalar × Bool) :=
  match table.find? s.kind with
  | some converter => (·, true) <$> converter s
  | none => .ok (s, false)

@[simp] theorem apply_empty (s : Scalar) : empty.apply s = .ok (s, false) := rfl

end Converters

end TypedRecords
