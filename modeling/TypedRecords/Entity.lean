/-
Entities: typed views of records.

An entity has a header that every type shares, scalar members in slots, and linked entities by the
name of their slot.  A link that is absent reads as null, and so does a linked entity that neither
came through a lookup nor has an identity.  The header may list the fields to write back; an empty
list means all of them.  A dynamic entity is one whose attributes stay in the record it holds.
-/
import TypedRecords.Schema
import TypedRecords.Record

namespace TypedRecords

/-- What every entity has. -/
structure Header where
  id : Identity := .nil
  /-- The entity's name in the store. -/
  entity : String := ""
  /-- The record the entity was mapped from. -/
  record : Option Record := none
  state : Lifecycle := .unknown
  status : Option Int32 := none
  /-- The lookup that a linked entity was reached through. -/
  lookup : Option Reference := none
  /-- The fields to write back, by attribute or member; empty for all. -/
  marked : List String := []
deriving DecidableEq, Inhabited

namespace Header

/-- Adds a field to those to write back. -/
def mark (h : Header) (field : String) : Header :=
  if field ∈ h.marked then h else { h with marked := h.marked ++ [field] }

/-- A field is to be written back. -/
def isMarked (h : Header) (wire member : String) : Bool :=
  h.marked.isEmpty || h.marked.contains wire || h.marked.contains member

end Header

/-- A typed view of a record. -/
structure Entity where
  header : Header := {}
  members : Members := {}
  /-- The linked entities by slot. -/
  links : List (String × Entity) := []

namespace Entity

instance : Inhabited Entity := ⟨{}⟩

/-- The lookup that points at an entity. -/
def reference (e : Entity) : Reference := ⟨e.header.entity, e.header.id⟩

/-- The linked entity in a slot. -/
def link? (e : Entity) (slot : String) : Option Entity := e.links.lookup slot

/-- Puts a linked entity into a slot, or clears the slot. -/
def setLink (e : Entity) (slot : String) (linked : Option Entity) : Entity :=
  let others := e.links.filter (·.1 ≠ slot)
  match linked with
  | some l => { e with links := (slot, l) :: others }
  | none => { e with links := others }

/-- The lookup to write for a linked entity: the one it came through, else one to its record. -/
def linkScalar : Option Entity → Scalar
  | none => .null
  | some linked =>
    match linked.header.lookup with
    | some lookup => .reference lookup
    | none => if linked.header.id.isNil then .null else .reference linked.reference

/-- A member as a scalar. -/
def read (e : Entity) (f : Field) : Scalar :=
  match f.binding with
  | .scalar slot => e.members.read slot
  | .link slot _ => linkScalar (e.link? slot)

/-- The member of a schema as a scalar. -/
def readMember? (e : Entity) (s : Schema) (member : String) : Option Scalar :=
  (s.field? member).map e.read

theorem record_empty : ({} : Entity).header.record = none := rfl

theorem header_setLink (e : Entity) (slot : String) (linked : Option Entity) :
    (e.setLink slot linked).header = e.header := by
  cases linked with
  | none => rfl
  | some l => rfl

theorem members_setLink (e : Entity) (slot : String) (linked : Option Entity) :
    (e.setLink slot linked).members = e.members := by
  cases linked with
  | none => rfl
  | some l => rfl

theorem link?_setLink_self (e : Entity) (slot : String) (linked : Option Entity) :
    (e.setLink slot linked).link? slot = linked := by
  cases linked with
  | some l => simp [setLink, link?]
  | none =>
    simp only [setLink, link?, List.lookup_eq_none_iff, List.mem_filter]
    intro p hp
    exact bne_iff_ne.mpr fun h => of_decide_eq_true hp.2 h.symm

/-! ### Dynamic entities -/

/-- The record that an entity holds, or a blank one with its name and identity. -/
def heldRecord (e : Entity) : Record :=
  e.header.record.getD { entity := e.header.entity, id := e.header.id }

/-- A dynamic entity without attributes. -/
def dynamic (name : String) : Entity :=
  { header := { entity := name, record := some { entity := name, id := .nil } } }

/-- A dynamic entity around a record. -/
def around (record : Record) : Entity :=
  { header := { id := record.id, entity := record.entity, record := some record } }

/-- An attribute of the held record. -/
def get? (e : Entity) (name : String) : Option Value := e.header.record.bind (·.get? name)

/-- The held record has an attribute. -/
def contains (e : Entity) (name : String) : Bool := (e.get? name).isSome

/-- An attribute of the held record as a member type's value. -/
def getAs {α : Type} [Member α] (e : Entity) (name : String) : Except ConversionError (Option α) :=
  match e.get? name with
  | some v => some <$> Member.ofScalar (Scalar.ofValue v)
  | none => .ok none

/-- Sets an attribute of the held record. -/
def set (e : Entity) (name : String) (value : Value) : Entity :=
  { e with header.record := some (e.heldRecord.set name value) }

/-- Sets the identity of the entity and of the held record. -/
def setId (e : Entity) (id : Identity) : Entity :=
  { e with header.record := some { e.heldRecord with id }, header.id := id }

end Entity

end TypedRecords
