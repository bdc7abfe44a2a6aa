/-
How a manager behaves: whether it writes at all, whether it asks for total counts, and whether it
follows eager links after each fetch.
-/
namespace TypedRecords

/-- The settings of a manager. -/
structure Config where
  /-- Refuse every write. -/
  readOnly : Bool := false
  /-- Ask the store for the number of matching records. -/
  countTotal : Bool := true
  /-- Resolve eager links by follow-up lookups after each fetch. -/
  resolveEager : Bool := true
deriving DecidableEq, Inhabited

/-- The settings of a manager that only reads. -/
def Config.reading : Config := { readOnly := true }

end TypedRecords
