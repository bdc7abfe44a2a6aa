/-
JSON texts as trees.

A tree keeps what a text says and no more: numbers by their digits, the members of an object in
order and with repetitions.  A quoted text with half of a surrogate pair is well-formed JSON, but it
stands for no string; the tree marks it as such.
-/
import TypedRecords.Json.Numeral

namespace TypedRecords

/-- A JSON value. -/
inductive Json where
  | null
  | bool (b : Bool)
  | number (n : Json.Numeral)
  /-- A quoted text; none for one that is no string. -/
  | quoted (s : Option String)
  | array (items : List Json)
  | object (members : List (Option String × Json))
deriving Inhabited

namespace Json

/-- A string. -/
def string (s : String) : Json := .quoted (some s)

/-- A natural number. -/
def nat (n : Nat) : Json := .number (.ofNat n)

/-- A whole number. -/
def int (n : Int) : Json := .number (.ofInt n)

/-- An object with these members. -/
def members (fields : List (String × Json)) : Json :=
  .object (fields.map fun (name, value) => (some name, value))

/-- A value that may be missing, null when it is. -/
def ofOption {α : Type} (ofSome : α → Json) : Option α → Json
  | some a => ofSome a
  | none => .null

/-- An array of values. -/
def list {α : Type} (ofItem : α → Json) (items : List α) : Json := .array (items.map ofItem)

end Json

end TypedRecords
