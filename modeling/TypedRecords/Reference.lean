/-
Lookups to other records, currency amounts and option codes.

A lookup names the entity of the record it points at and the record's identity; two lookups with
one identity under different names are different.  An amount is a decimal used as money, and a
choice is the code of an option.
-/
import TypedRecords.Identity
import TypedRecords.Number.Decimal

namespace TypedRecords

open Number (Decimal)

/-- A lookup: the entity name and the identity of another record. -/
structure Reference where
  entity : String
  id : Identity
deriving DecidableEq

namespace Reference

/-- The lookup that points nowhere and names nothing. -/
def blank : Reference := ⟨"", .nil⟩

instance : Inhabited Reference := ⟨blank⟩

/-- The lookup as `entity(id)`. -/
def text (r : Reference) : String := r.entity ++ "(" ++ r.id.canonical ++ ")"

end Reference

/-- A currency amount. -/
structure Money where
  amount : Decimal
deriving DecidableEq, Inhabited

/-- The code of an option. -/
structure Choice where
  code : Int32
deriving DecidableEq, Inhabited

end TypedRecords
