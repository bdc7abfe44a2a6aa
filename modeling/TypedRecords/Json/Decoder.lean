/-
Decoding JSON trees.

A decoder gives the value that a tree stands for, if any, in the room that is left for nesting:
each array or object that is looked into takes one level of it, those that are passed over take
none.  A structure is an object with its fields' names, unknown names passed over and known ones
given once, or an array of its fields in order.  A choice among variants is a name, or an object
with the name and the variant's content.
-/
import TypedRecords.Json.Reader
import TypedRecords.Number.Word

namespace TypedRecords.Json

/-- Reads a value out of a tree in the room left for nesting. -/
abbrev Decoder (α : Type) := (room : Nat) → Json → Option α

/-- The levels that a text may nest. -/
def nestingRoom : Nat := 127

/-- The value that a text stands for. -/
def Decoder.ofText? {α : Type} (d : Decoder α) (s : String) : Option α :=
  (Json.ofText? s).bind (d nestingRoom)

namespace Decoder

/-! ### Simple values -/

def bool : Decoder Bool
  | _, .bool b => some b
  | _, _ => none

def string : Decoder String
  | _, .quoted s => s
  | _, _ => none

/-- A whole number. -/
def int : Decoder Int
  | _, .number n => n.toInt?
  | _, _ => none

def int32 : Decoder Int32 := fun room j => (int room j).bind Number.int32?

def int64 : Decoder Int64 := fun room j => (int room j).bind Number.int64?

/-- A whole number that is not negative. -/
def nat : Decoder Nat := fun room j =>
  (int room j).bind fun n => if 0 ≤ n then some n.toNat else none

def uint32 : Decoder UInt32 := fun room j => (nat room j).bind Number.uint32?

def uint64 : Decoder UInt64 := fun room j => (nat room j).bind Number.uint64?

/-- A text that a reader accepts. -/
def text {α : Type} (read : String → Option α) : Decoder α :=
  fun room j => (string room j).bind read

/-! ### Containers -/

/-- A value, or null. -/
def nullable {α : Type} (d : Decoder α) : Decoder (Option α)
  | _, .null => some none
  | room, j => (d room j).map some

/-- An array of values. -/
def list {α : Type} (d : Decoder α) : Decoder (List α)
  | room + 1, .array items => items.mapM (d room)
  | _, _ => none

/-- The members of an object. -/
def entries {α : Type} (d : Decoder α) : Decoder (List (String × α))
  | room + 1, .object members => members.mapM fun (name, j) => do
    return (← name, ← d room j)
  | _, _ => none

/-! ### Structures -/

/-- The fields of a structure that a tree gives, and the room left inside. -/
structure Parts where
  room : Nat
  given : List (String × Json)

/-- The members of an object that bear one of the names. -/
def known (names : List String) (members : List (Option String × Json)) : List (String × Json) :=
  members.filterMap fun (name, j) =>
    name.bind fun name => if name ∈ names then some (name, j) else none

/-- The fields of a structure with these names.  An array gives every field, or at least no more
than there are when the fields have defaults. -/
def parts (names : List String) (defaults : Bool) : Decoder Parts
  | room + 1, .object members =>
    let given := known names members
    if members.all (·.1.isSome) ∧ (given.map Prod.fst).Nodup then some ⟨room, given⟩ else none
  | room + 1, .array items =>
    if items.length = names.length ∨ (defaults ∧ items.length ≤ names.length) then
      some ⟨room, names.zip items⟩
    else none
  | _, _ => none

namespace Parts

/-- A field that has to be there. -/
def required {α : Type} (p : Parts) (name : String) (d : Decoder α) : Option α :=
  (p.given.lookup name).bind (d p.room)

/-- A field that may be missing or null. -/
def optional {α : Type} (p : Parts) (name : String) (d : Decoder α) : Option (Option α) :=
  match p.given.lookup name with
  | none => some none
  | some j => nullable d p.room j

/-- A field with a default. -/
def withDefault {α : Type} (p : Parts) (name : String) (d : Decoder α) (default : α) : Option α :=
  match p.given.lookup name with
  | none => some default
  | some j => d p.room j

end Parts

/-! ### Variants -/

/-- The name of a variant, with its content and the room left for it. -/
def variant : Decoder (String × Option (Nat × Json))
  | _, .quoted (some name) => some (name, none)
  | room + 1, .object [(some name, content)] => some (name, some (room, content))
  | _, _ => none

/-- One of several variants without content. -/
def oneOf {α : Type} (values : List (String × α)) : Decoder α := fun room j => do
  match ← variant room j with
  | (name, none) => values.lookup name
  | (name, some (_, .null)) => values.lookup name
  | _ => none

end Decoder

end TypedRecords.Json
