/-
Values in JSON to the last bit.

Where the plain form loses special doubles, the exact form keeps every value apart: a value is null,
or an object with one member, its type's name with its content.  A double is its sixteen hexadecimal
digits, one pattern for every not-a-number; 64-bit integers and decimals are texts, an instant its
seconds and nanoseconds, a lookup its entity's name and identity.  A scalar has the same content
under its kind's name.  Logs of the requests to a store are written with values in this form.
-/
import TypedRecords.Json.Queries
import TypedRecords.Store

namespace TypedRecords.Json

open TypedRecords.Number (Decimal Double)
open Time (Instant)

/-! ### Writing -/

/-- The bits of a double. -/
def ofBits (d : Double) : Json :=
  let d := if d.magnitude = .nan then Double.nan else d
  .string (String.ofList ((Text.fixedDigits 16 16 d.bits.toNat).map Nat.digitChar))

/-- A lookup as a pair. -/
def ofPair (r : Reference) : Json := .array [.string r.entity, ofIdentity r.id]

/-- A value's content in the exact form. -/
def exactContent : Value → Json
  | .null => .null
  | .bool b => .bool b
  | .int32 n | .optionSet n => .int n.toInt
  | .int64 n => .string (Text.intText n.toInt)
  | .double d => ofBits d
  | .decimal d | .money d => ofDecimal d
  | .string s => .string s
  | .datetime t => .array [.int t.seconds, .nat t.nanos]
  | .guid id => ofIdentity id
  | .reference r => ofPair r

/-- The exact form of a value. -/
def ofExactValue : Value → Json
  | .null => .null
  | v => .members [(v.typeName, exactContent v)]

/-- The exact form of a scalar. -/
def ofExactScalar : Scalar → Json
  | .null => .null
  | s => .members [(s.kind.name, exactContent s.toValue)]

/-- The exact form of a record. -/
def ofExactRecord (record : Record) : Json :=
  .members [("entity", .string record.entity), ("id", ofIdentity record.id),
    ("attrs", .members (record.attributes.entries.map fun (name, v) => (name, ofExactValue v)))]

/-- A request as a log shows it. -/
def ofRequest : Request → Json
  | .retrieve q => .members [("retrieve", ofPageQuery q)]
  | .create record verbatim =>
    .members [("create", ofExactRecord record), ("verbatim", .bool verbatim)]
  | .update record verbatim =>
    .members [("update", ofExactRecord record), ("verbatim", .bool verbatim)]
  | .setState target state status verbatim =>
    .members [("set_state", .array [ofPair target, .int state.toInt, .int status.toInt]),
      ("verbatim", .bool verbatim)]
  | .associate root child relationship verbatim =>
    .members [("associate", .array [ofPair root, ofPair child, .string relationship]),
      ("verbatim", .bool verbatim)]

/-! ### Reading -/

namespace Decoder

/-- An array of two. -/
def pair {α β : Type} (first : Decoder α) (second : Decoder β) : Decoder (α × β)
  | room + 1, .array [a, b] => do return (← first room a, ← second room b)
  | _, _ => none

/-- A double by its bits. -/
def bits : Decoder Double := text fun s => do
  let digits ← s.toList.mapM Text.hexValue?
  return ⟨← Number.uint64? (Text.ofDigits 16 0 digits)⟩

/-- A 64-bit integer as text. -/
def wideInt : Decoder Int64 := text fun s => (Text.readInt s.toList).bind Number.int64?

/-- A lookup as a pair. -/
def referencePair : Decoder Reference :=
  fun room j => (pair string (text Identity.ofText?) room j).map fun (entity, id) => ⟨entity, id⟩

/-- An instant by its seconds and nanoseconds. -/
def instantPair : Decoder Instant :=
  fun room j => (pair int nat room j).bind fun (seconds, nanos) => Instant.ofParts? seconds nanos

/-- The content of a value of a type. -/
def exactContent (type : String) : Decoder Value := fun room j =>
  match type with
  | "bool" => (bool room j).map .bool
  | "int32" => (int32 room j).map .int32
  | "int64" => (wideInt room j).map .int64
  | "double" => (bits room j).map .double
  | "decimal" => (text Decimal.ofText? room j).map .decimal
  | "string" => (string room j).map .string
  | "datetime" => (instantPair room j).map .datetime
  | "guid" => (text Identity.ofText? room j).map .guid
  | "reference" => (referencePair room j).map .reference
  | "money" => (text Decimal.ofText? room j).map .money
  | "optionset" => (int32 room j).map .optionSet
  | _ => none

/-- A value under the name of its type, which `typeOf` finds. -/
def exactlyNamed (typeOf : String → Option String) : Decoder Value
  | _, .null => some .null
  | room + 1, .object [(some name, content)] => do exactContent (← typeOf name) room content
  | _, _ => none

/-- A value in the exact form. -/
def exactValue : Decoder Value := exactlyNamed some

/-- A scalar in the exact form. -/
def exactScalar : Decoder Scalar := fun room j =>
  (exactlyNamed (fun name => (Scalar.Kind.ofName? name).map (·.typeName)) room j).map Scalar.ofValue

/-- A record in the exact form. -/
def exactRecord : Decoder Record := fun room j => do
  let p ← parts ["entity", "id", "attrs"] false room j
  return {
    entity := ← p.required "entity" string
    id := ← p.required "id" (text Identity.ofText?)
    attributes := .ofList (← p.required "attrs" (entries exactValue)) }

end Decoder

end TypedRecords.Json
