/-
Attribute values as a store holds them.

A value has one of twelve types, each with a name of its own.  In a filter condition a value stands
as text that no locale touches: decimals normalized with a point, identities canonical, timestamps
in UTC to the second.  Only null has no condition text.
-/
import TypedRecords.Number.DoubleText
import TypedRecords.Reference
import TypedRecords.Time.Rfc3339

namespace TypedRecords

open Number (Decimal Double)
open Time (Instant)

/-- A raw attribute value. -/
inductive Value where
  | null
  | bool (b : Bool)
  | int32 (n : Int32)
  | int64 (n : Int64)
  | double (d : Double)
  | decimal (d : Decimal)
  | string (s : String)
  | datetime (t : Instant)
  | guid (id : Identity)
  | reference (r : Reference)
  | money (amount : Decimal)
  | optionSet (code : Int32)
deriving DecidableEq, Inhabited

namespace Value

/-- The name of a value's type. -/
def typeName : Value → String
  | null => "null"
  | bool _ => "bool"
  | int32 _ => "int32"
  | int64 _ => "int64"
  | double _ => "double"
  | decimal _ => "decimal"
  | string _ => "string"
  | datetime _ => "datetime"
  | guid _ => "guid"
  | reference _ => "reference"
  | money _ => "money"
  | optionSet _ => "optionset"

/-- The value is null. -/
def isNull : Value → Bool
  | null => true
  | _ => false

/-- A value that may be missing, null when it is. -/
def ofOption {α : Type} (ofSome : α → Value) : Option α → Value
  | some a => ofSome a
  | none => null

/-! ### Views of one type -/

def asBool? : Value → Option Bool
  | bool b => some b
  | _ => none

/-- A 32-bit integer or an option code. -/
def asInt32? : Value → Option Int32
  | int32 n | optionSet n => some n
  | _ => none

/-- An integer of either width or an option code. -/
def asInt64? : Value → Option Int64
  | int64 n => some n
  | int32 n | optionSet n => some n.toInt64
  | _ => none

def asDouble? : Value → Option Double
  | double d => some d
  | _ => none

/-- A decimal or an amount. -/
def asDecimal? : Value → Option Decimal
  | decimal d | money d => some d
  | _ => none

def asString? : Value → Option String
  | string s => some s
  | _ => none

/-- An identity, or the one a lookup points at. -/
def asIdentity? : Value → Option Identity
  | guid id => some id
  | reference r => some r.id
  | _ => none

def asReference? : Value → Option Reference
  | reference r => some r
  | _ => none

/-- The text of a value in a filter condition. -/
def conditionText? : Value → Option String
  | null => none
  | bool b => some (if b then "true" else "false")
  | int32 n | optionSet n => some (Text.intText n.toInt)
  | int64 n => some (Text.intText n.toInt)
  | double d => some d.text
  | decimal d | money d => some d.normalize.text
  | string s => some s
  | datetime t => some t.toTheSecond
  | guid id => some id.canonical
  | reference r => some r.id.canonical

end Value

end TypedRecords
