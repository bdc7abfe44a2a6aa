/-
Writing JSON.

The compact form has no blanks.  Inside quotes, a quote and a backslash are escaped, control
characters have their short escapes or `\u00xx`, and every other character stands for itself.
-/
import TypedRecords.Json.Tree

namespace TypedRecords.Json

/-- The form of a character inside quotes. -/
def escape (c : Char) : List Char :=
  if c = '"' then ['\\', '"']
  else if c = '\\' then ['\\', '\\']
  else if c = '\n' then ['\\', 'n']
  else if c = '\t' then ['\\', 't']
  else if c = '\r' then ['\\', 'r']
  else if c = '\x08' then ['\\', 'b']
  else if c = '\x0c' then ['\\', 'f']
  else if c.toNat < 32 then
    '\\' :: 'u' :: '0' :: '0' :: (Text.fixedDigits 16 2 c.toNat).map Nat.digitChar
  else [c]

/-- A text in quotes; one that is no string is written as half of a surrogate pair. -/
def quote : Option String → List Char
  | some s => '"' :: s.toList.flatMap escape ++ ['"']
  | none => "\"\\ud800\"".toList

namespace Numeral

/-- A number by its digits. -/
def chars (n : Numeral) : List Char :=
  let digits (ds : List Nat) := ds.map Nat.digitChar
  (if n.negative then ['-'] else []) ++ digits n.whole
    ++ (match n.fraction with
      | some ds => '.' :: digits ds
      | none => [])
    ++ match n.exponent with
      | some (negative, ds) => 'e' :: (if negative then ['-'] else []) ++ digits ds
      | none => []

end Numeral

mutual

/-- The compact form of a value. -/
def chars : Json → List Char
  | .null => "null".toList
  | .bool true => "true".toList
  | .bool false => "false".toList
  | .number n => n.chars
  | .quoted s => quote s
  | .array [] => ['[', ']']
  | .array (item :: rest) => '[' :: item.chars ++ itemChars rest
  | .object [] => ['{', '}']
  | .object ((name, value) :: rest) => '{' :: quote name ++ ':' :: value.chars ++ memberChars rest

/-- The items of an array after the first, with its end. -/
def itemChars : List Json → List Char
  | [] => [']']
  | item :: rest => ',' :: item.chars ++ itemChars rest

/-- The members of an object after the first, with its end. -/
def memberChars : List (Option String × Json) → List Char
  | [] => ['}']
  | (name, value) :: rest => ',' :: quote name ++ ':' :: value.chars ++ memberChars rest

end

/-- The compact text of a value. -/
def text (j : Json) : String := String.ofList j.chars

end TypedRecords.Json
