/-
Scalars: what typed members are read as and written from.

A scalar is an attribute value seen from the domain side, with one constructor for each type of
value: lifting a value and lowering a scalar are inverse to each other.  A scalar that holds a whole
number can stand for an option code when the number fits one.
-/
import TypedRecords.Value
import TypedRecords.Number.Word

namespace TypedRecords

open Number (Decimal Double)
open Time (Instant)

/-- A member's value. -/
inductive Scalar where
  | null
  | bool (b : Bool)
  | int (n : Int32)
  | bigint (n : Int64)
  | double (d : Double)
  | decimal (d : Decimal)
  | string (s : String)
  | datetime (t : Instant)
  | identity (id : Identity)
  | reference (r : Reference)
  | money (m : Money)
  | choice (c : Choice)
deriving DecidableEq, Inhabited

namespace Scalar

/-- The kinds of scalars. -/
inductive Kind where
  | null
  | bool
  | int
  | bigint
  | double
  | decimal
  | string
  | datetime
  | identity
  | reference
  | money
  | choice
deriving DecidableEq, Inhabited

namespace Kind

/-- Every kind. -/
def all : List Kind :=
  [null, bool, int, bigint, double, decimal, string, datetime, identity, reference, money, choice]

/-- The name of a kind in messages. -/
def label : Kind → String
  | null => "Null"
  | bool => "Bool"
  | int => "Int"
  | bigint => "BigInt"
  | double => "Double"
  | decimal => "Decimal"
  | string => "String"
  | datetime => "DateTime"
  | identity => "Identity"
  | reference => "Reference"
  | money => "Money"
  | choice => "Choice"

/-- The name of a kind. -/
def name : Kind → String
  | null => "null"
  | bool => "bool"
  | int => "int"
  | bigint => "bigint"
  | double => "double"
  | decimal => "decimal"
  | string => "string"
  | datetime => "datetime"
  | identity => "identity"
  | reference => "reference"
  | money => "money"
  | choice => "choice"

/-- The kind with a name. -/
def ofName? (s : String) : Option Kind := all.find? (·.name = s)

/-- The name of the type of the values whose scalars are of a kind. -/
def typeName : Kind → String
  | int => "int32"
  | bigint => "int64"
  | identity => "guid"
  | choice => "optionset"
  | k => k.name

end Kind

/-- The kind of a scalar. -/
def kind : Scalar → Kind
  | null => .null
  | bool _ => .bool
  | int _ => .int
  | bigint _ => .bigint
  | double _ => .double
  | decimal _ => .decimal
  | string _ => .string
  | datetime _ => .datetime
  | identity _ => .identity
  | reference _ => .reference
  | money _ => .money
  | choice _ => .choice

/-- The scalar is null. -/
def isNull (s : Scalar) : Bool := s = null

end Scalar

/-- A scalar of one kind that cannot become what was asked for. -/
structure ConversionError where
  expected : String
  found : Scalar.Kind
deriving DecidableEq, Inhabited

/-- The wording of a conversion error. -/
def ConversionError.message (e : ConversionError) : String :=
  "cannot convert " ++ e.found.label ++ " value to " ++ e.expected

namespace Scalar

/-- Refuses a scalar. -/
def refuse {α : Type} (s : Scalar) (expected : String) : Except ConversionError α :=
  .error ⟨expected, s.kind⟩

/-- The scalar as an option code; null stays null. -/
def toChoice : Scalar → Except ConversionError Scalar
  | null => .ok null
  | choice c => .ok (choice c)
  | int n => .ok (choice ⟨n⟩)
  | bigint n =>
    match Number.int32? n.toInt with
    | some code => .ok (choice ⟨code⟩)
    | none => (bigint n).refuse "option set"
  | s => s.refuse "option set"

/-- The scalar for an attribute value. -/
def ofValue : Value → Scalar
  | .null => null
  | .bool b => bool b
  | .int32 n => int n
  | .int64 n => bigint n
  | .double d => double d
  | .decimal d => decimal d
  | .string s => string s
  | .datetime t => datetime t
  | .guid id => identity id
  | .reference r => reference r
  | .money amount => money ⟨amount⟩
  | .optionSet code => choice ⟨code⟩

/-- The attribute value for a scalar. -/
def toValue : Scalar → Value
  | null => .null
  | bool b => .bool b
  | int n => .int32 n
  | bigint n => .int64 n
  | double d => .double d
  | decimal d => .decimal d
  | string s => .string s
  | datetime t => .datetime t
  | identity id => .guid id
  | reference r => .reference r
  | money m => .money m.amount
  | choice c => .optionSet c.code

/-- The text of a scalar in a filter condition, and for a lookup the entity it points at. -/
def conditionValue : Scalar → Option String × Option String
  | reference r => (some r.id.canonical, some r.entity)
  | s => (s.toValue.conditionText?, none)

@[simp] theorem ofValue_toValue (s : Scalar) : ofValue s.toValue = s := by cases s <;> rfl

@[simp] theorem toValue_ofValue (v : Value) : (ofValue v).toValue = v := by cases v <;> rfl

end Scalar

end TypedRecords
