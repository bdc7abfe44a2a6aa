/-
Records: an entity name, an identity and a bag of attributes.

Attributes are kept in the order in which their names first came, one value a name.  The attributes
of a joined record arrive flattened into its parent's: under the join's alias, a point, and a path
whose last segment is the attribute's own name.  Extraction picks the attributes of one alias and
drops all but that segment.
-/
import TypedRecords.Value

namespace TypedRecords

/-- Sets a name's value in a list of pairs: in place when the name is there, else at the end. -/
def putEntry (name : String) (value : Value) : List (String × Value) → List (String × Value)
  | [] => [(name, value)]
  | entry :: rest =>
    if entry.1 = name then (name, value) :: rest else entry :: putEntry name value rest

theorem keys_putEntry (name : String) (value : Value) (entries : List (String × Value)) :
    (putEntry name value entries).map Prod.fst
      = if name ∈ entries.map Prod.fst then entries.map Prod.fst
        else entries.map Prod.fst ++ [name] := by
  induction entries with
  | nil => rfl
  | cons entry rest ih =>
    rw [putEntry]
    by_cases h : entry.1 = name
    · simp [h]
    · have h' : ¬name = entry.1 := fun e => h e.symm
      simp only [h, if_false, List.map_cons, ih, List.mem_cons, h', false_or]
      split <;> simp

/-- An attribute bag: names with their values, no name twice. -/
structure Attributes where
  entries : List (String × Value)
  nodup : (entries.map Prod.fst).Nodup
deriving DecidableEq

namespace Attributes

/-- No attributes. -/
def empty : Attributes := ⟨[], by simp⟩

instance : Inhabited Attributes := ⟨empty⟩

/-- Sets an attribute, replacing any previous value. -/
def insert (attributes : Attributes) (name : String) (value : Value) : Attributes :=
  ⟨putEntry name value attributes.entries, by
    rw [keys_putEntry]
    split
    · exact attributes.nodup
    · rename_i h
      rw [List.nodup_append]
      refine ⟨attributes.nodup, by simp, ?_⟩
      intro a ha b hb
      simp only [List.mem_singleton] at hb
      exact fun e => h (hb ▸ e ▸ ha)⟩

/-- Drops an attribute. -/
def erase (attributes : Attributes) (name : String) : Attributes :=
  ⟨attributes.entries.filter (·.1 ≠ name),
    attributes.nodup.sublist (List.filter_sublist.map _)⟩

/-- An attribute's value. -/
def get? (attributes : Attributes) (name : String) : Option Value :=
  attributes.entries.lookup name

/-- The attribute is present, be it null. -/
def contains (attributes : Attributes) (name : String) : Bool :=
  (attributes.get? name).isSome

/-- The number of attributes. -/
def size (attributes : Attributes) : Nat := attributes.entries.length

/-- The attributes of a list of pairs, the last value of a name being the one that stays. -/
def ofList (pairs : List (String × Value)) : Attributes :=
  pairs.foldl (fun attributes (name, value) => attributes.insert name value) empty

theorem lookup_putEntry (name other : String) (value : Value) (entries : List (String × Value)) :
    (putEntry name value entries).lookup other
      = if other = name then some value else entries.lookup other := by
  induction entries with
  | nil =>
    by_cases h : other = name
    · simp [putEntry, h]
    · simp [putEntry, List.lookup_cons, h, beq_eq_false_iff_ne.mpr h]
  | cons entry rest ih =>
    obtain ⟨key, held⟩ := entry
    rw [putEntry]
    by_cases hk : key = name
    · by_cases h : other = name
      · simp [hk, h]
      · simp [hk, h, List.lookup_cons, beq_eq_false_iff_ne.mpr h]
    · by_cases ho : other = key
      · have hn : ¬key = name := hk
        simp [hn, ho]
      · simp [hk, List.lookup_cons, beq_eq_false_iff_ne.mpr ho, ih]

/-- Reading after a write. -/
theorem get?_insert (attributes : Attributes) (name other : String) (value : Value) :
    (attributes.insert name value).get? other
      = if other = name then some value else attributes.get? other :=
  lookup_putEntry ..

end Attributes

/-- One record as a store returns it. -/
structure Record where
  entity : String
  id : Identity
  attributes : Attributes := .empty
deriving DecidableEq, Inhabited

/-- The alias of a joined entity: its name followed by its place among the joins. -/
def joinAlias (child : String) (place : Nat) : String := child ++ Nat.repr place

/-- What follows the last point. -/
def lastSegment (path : List Char) : List Char :=
  (path.reverse.takeWhile (· ≠ '.')).reverse

namespace Record

/-- Sets an attribute. -/
def set (record : Record) (name : String) (value : Value) : Record :=
  { record with attributes := record.attributes.insert name value }

/-- An attribute's value. -/
def get? (record : Record) (name : String) : Option Value := record.attributes.get? name

/-- Drops an attribute. -/
def erase (record : Record) (name : String) : Record :=
  { record with attributes := record.attributes.erase name }

/-- The record has neither an identity nor attributes. -/
def isBlank (record : Record) : Bool := record.id.isNil && record.attributes.size = 0

/-- The name under which a flattened attribute belongs to the record joined as `joinName`. -/
def joinedName? (joinName key : String) : Option String :=
  ((joinName ++ ".").toList.isPrefixOf? key.toList).map fun path => String.ofList (lastSegment path)

/-- The record joined as the `place`-th entity, named `child`, out of its parent's attributes. -/
def extract (record : Record) (child : String) (place : Nat) : Record :=
  let joined := record.attributes.entries.filterMap fun (key, value) =>
    (joinedName? (joinAlias child place) key).map (·, value)
  ⟨child, .nil, .ofList joined⟩

theorem get?_set (record : Record) (name other : String) (value : Value) :
    (record.set name value).get? other = if other = name then some value else record.get? other :=
  Attributes.get?_insert ..

end Record

end TypedRecords
