/-
Member types: the types a scalar member of an entity can have.

A member type says how its values are seen as scalars and which scalars it accepts.  Null gives the
type's blank value; other kinds are accepted when they hold the same thing in another form, such as
a number in text, and refused with the type's name otherwise.  An optional member reads null as
"absent"; a lookup that points nowhere is seen as null.
-/
import TypedRecords.Scalar

namespace TypedRecords

open Number (Decimal Double)
open Time (Instant)

/-- A type of members: its values as scalars, and back. -/
class Member (α : Type) where
  /-- The value a fresh member has. -/
  blank : α
  toScalar : α → Scalar
  ofScalar : Scalar → Except ConversionError α

namespace Scalar

/-- What a reading gave, or the scalar refused. -/
def orRefuse {α : Type} (s : Scalar) (expected : String) (result : Option α) :
    Except ConversionError α :=
  match result with
  | some a => .ok a
  | none => s.refuse expected

end Scalar

open Scalar

/-- The two words for truth values. -/
def readBool? : String → Option Bool
  | "true" => some true
  | "false" => some false
  | _ => none

instance : Member Bool where
  blank := false
  toScalar := .bool
  ofScalar
    | .null => .ok false
    | .bool b => .ok b
    | .int n => .ok (n != 0)
    | .string s => (Scalar.string s).orRefuse "bool" (readBool? s)
    | s => s.refuse "bool"

instance : Member Int32 where
  blank := 0
  toScalar := .int
  ofScalar
    | .null => .ok 0
    | .int n => .ok n
    | .choice c => .ok c.code
    | .bigint n => (Scalar.bigint n).orRefuse "i32" (Number.int32? n.toInt)
    | .string s =>
      (Scalar.string s).orRefuse "i32" ((Text.readInt s.toList).bind Number.int32?)
    | s => s.refuse "i32"

instance : Member Int64 where
  blank := 0
  toScalar := .bigint
  ofScalar
    | .null => .ok 0
    | .bigint n => .ok n
    | .int n => .ok n.toInt64
    | .choice c => .ok c.code.toInt64
    | .string s =>
      (Scalar.string s).orRefuse "i64" ((Text.readInt s.toList).bind Number.int64?)
    | s => s.refuse "i64"

instance : Member Double where
  blank := .zero
  toScalar := .double
  ofScalar
    | .null => .ok .zero
    | .double d => .ok d
    | .int n => .ok (.ofInt n.toInt)
    | .bigint n => .ok (.ofInt n.toInt)
    | .decimal d => .ok d.toDouble
    | .money m => .ok m.amount.toDouble
    | s => s.refuse "f64"

instance : Member Decimal where
  blank := .zero
  toScalar := .decimal
  ofScalar
    | .null => .ok .zero
    | .decimal d => .ok d
    | .money m => .ok m.amount
    | .int n => .ok (.ofInt32 n)
    | .bigint n => .ok (.ofInt64 n)
    | .double d => (Scalar.double d).orRefuse "decimal" (Decimal.ofDouble? d)
    | s => s.refuse "decimal"

instance : Member String where
  blank := ""
  toScalar := .string
  ofScalar
    | .null => .ok ""
    | .string s => .ok s
    | .identity id => .ok id.canonical
    | s => s.refuse "string"

instance : Member Instant where
  blank := .epoch
  toScalar := .datetime
  ofScalar
    | .null => .ok .epoch
    | .datetime t => .ok t
    | .string s => (Scalar.string s).orRefuse "datetime" (Instant.ofText? s)
    | s => s.refuse "datetime"

instance : Member Identity where
  blank := .nil
  toScalar := .identity
  ofScalar
    | .null => .ok .nil
    | .identity id => .ok id
    | .reference r => .ok r.id
    | .string s => (Scalar.string s).orRefuse "identity" (Identity.ofText? s)
    | s => s.refuse "identity"

instance : Member Reference where
  blank := .blank
  toScalar r := if r.id.isNil then .null else .reference r
  ofScalar
    | .null => .ok .blank
    | .reference r => .ok r
    | s => s.refuse "reference"

instance : Member Money where
  blank := ⟨.zero⟩
  toScalar := .money
  ofScalar
    | .null => .ok ⟨.zero⟩
    | .money m => .ok m
    | .decimal d => .ok ⟨d⟩
    | s => s.refuse "money"

instance : Member Choice where
  blank := ⟨0⟩
  toScalar := .choice
  ofScalar
    | .null => .ok ⟨0⟩
    | .choice c => .ok c
    | .int n => .ok ⟨n⟩
    | s => s.refuse "option set"

instance {α : Type} [Member α] : Member (Option α) where
  blank := none
  toScalar
    | some a => Member.toScalar a
    | none => .null
  ofScalar
    | .null => .ok none
    | s => some <$> Member.ofScalar s

end TypedRecords
