/-
Records and values in JSON.

A value is its type's name with its content, null the name alone.  Decimals are written as strings
and read from strings or numbers, identities are canonical strings, timestamps RFC 3339 strings in
UTC.  A lookup is a structure of its entity's name and identity; as a member's value its identity
comes first.  What is written reads back, special doubles apart, which are written as null.
-/
import TypedRecords.Json.Decoder
import TypedRecords.Json.Writer
import TypedRecords.Number.DecimalReader
import TypedRecords.Query.PageQuery

namespace TypedRecords.Json

open Number (Decimal Double)
open Time (Instant)
open Query (Page)

/-! ### Texts and numbers inside values -/

def ofDecimal (d : Decimal) : Json := .string d.text

def ofIdentity (id : Identity) : Json := .string id.canonical

def ofInstant (t : Instant) : Json := .string t.inFull

/-- A double by its shortest digits, a special one as null. -/
def ofDouble (d : Double) : Json :=
  match Numeral.ofDouble? d with
  | some n => .number n
  | none => .null

namespace Decoder

/-- A decimal, from a text or a number. -/
def decimal : Decoder Decimal
  | _, .quoted s => s.bind Decimal.ofText?
  | _, .number n =>
    match n.toInt? with
    | some i => if -2 ^ 63 ≤ i ∧ i < 2 ^ 64 then Decimal.ofParts? i 0 else ofDouble n
    | none => ofDouble n
  | _, _ => none
where
  /-- The decimal with the digits of the double that a number stands for. -/
  ofDouble (n : Numeral) : Option Decimal :=
    n.toDouble?.bind fun d => Decimal.ofText? d.text

def double : Decoder Double
  | _, .number n => n.toDouble?
  | _, _ => none

def identity : Decoder Identity := text Identity.ofBraced?

def instant : Decoder Instant := text Instant.ofLenientText?

end Decoder

/-! ### Lookups -/

/-- A lookup in a record: the entity's name, then the identity. -/
def ofReference (r : Reference) : Json :=
  .members [("logical_name", .string r.entity), ("id", ofIdentity r.id)]

/-- A lookup as a member's value: the identity, then the entity's name. -/
def ofMemberReference (r : Reference) : Json :=
  .members [("id", ofIdentity r.id), ("logical_name", .string r.entity)]

/-- Reads a lookup with its fields in the given order. -/
def Decoder.referenceOf (names : List String) : Decoder Reference := fun room j => do
  let p ← parts names false room j
  return { entity := ← p.required "logical_name" string, id := ← p.required "id" identity }

def Decoder.reference : Decoder Reference := referenceOf ["logical_name", "id"]

def Decoder.memberReference : Decoder Reference := referenceOf ["id", "logical_name"]

/-! ### Values -/

def ofValue : Value → Json
  | .null => .string "Null"
  | .bool b => .members [("Bool", .bool b)]
  | .int32 n => .members [("Int32", .int n.toInt)]
  | .int64 n => .members [("Int64", .int n.toInt)]
  | .double d => .members [("Double", ofDouble d)]
  | .decimal d => .members [("Decimal", ofDecimal d)]
  | .string s => .members [("String", .string s)]
  | .datetime t => .members [("DateTime", ofInstant t)]
  | .guid id => .members [("Guid", ofIdentity id)]
  | .reference r => .members [("Reference", ofReference r)]
  | .money amount => .members [("Money", ofDecimal amount)]
  | .optionSet code => .members [("OptionSet", .int code.toInt)]

/-- The values with content, by the name of their variant. -/
def Decoder.valueContent (name : String) : Decoder Value := fun room j =>
  match name with
  | "Null" => match j with
    | .null => some .null
    | _ => none
  | "Bool" => (bool room j).map .bool
  | "Int32" => (int32 room j).map .int32
  | "Int64" => (int64 room j).map .int64
  | "Double" => (double room j).map .double
  | "Decimal" => (decimal room j).map .decimal
  | "String" => (string room j).map .string
  | "DateTime" => (instant room j).map .datetime
  | "Guid" => (identity room j).map .guid
  | "Reference" => (reference room j).map .reference
  | "Money" => (decimal room j).map .money
  | "OptionSet" => (int32 room j).map .optionSet
  | _ => none

def Decoder.value : Decoder Value := fun room j => do
  match ← variant room j with
  | ("Null", none) => some .null
  | (_, none) => none
  | (name, some (room, content)) => valueContent name room content

/-! ### Records and pages -/

def ofAttributes (attributes : Attributes) : Json :=
  .members (attributes.entries.map fun (name, value) => (name, ofValue value))

def ofRecord (record : Record) : Json :=
  .members [("entity_name", .string record.entity), ("id", ofIdentity record.id),
    ("attributes", ofAttributes record.attributes)]

def Decoder.record : Decoder Record := fun room j => do
  let p ← parts ["entity_name", "id", "attributes"] false room j
  let pairs ← p.required "attributes" (entries value)
  return {
    entity := ← p.required "entity_name" string
    id := ← p.required "id" identity
    attributes := .ofList pairs }

def ofPage (page : Page) : Json :=
  .members [
    ("records", list ofRecord page.records),
    ("more_records", .bool page.more),
    ("total_record_count", ofOption (fun n => .nat n.toNat) page.total),
    ("total_record_count_limit_exceeded", .bool page.limitExceeded),
    ("page", .nat page.page.toNat)]

def Decoder.page : Decoder Page := fun room j => do
  let p ← parts ["records", "more_records", "total_record_count",
    "total_record_count_limit_exceeded", "page"] false room j
  return {
    records := ← p.required "records" (list record)
    more := ← p.required "more_records" bool
    total := ← p.optional "total_record_count" uint64
    limitExceeded := ← p.required "total_record_count_limit_exceeded" bool
    page := ← p.required "page" uint32 }

end TypedRecords.Json
