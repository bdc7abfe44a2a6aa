/-
Declarations: how an entity type says which of its members are mapped to which attributes.

A type lists its declarations in order.  A field declaration maps a scalar slot or a linked entity
to an attribute; a modifier changes the field declared last; the rest concern the type as a whole.
-/
import TypedRecords.Scalar.Slot

namespace TypedRecords

/-- The name of an entity type, as messages show it. -/
abbrev TypeName := String

/-- A relationship between two entities under a name the store knows. -/
structure Relationship where
  name : String
  /-- The member that the relationship is declared on. -/
  member : String
  rootEntity : String
  childEntity : String
  rootField : Option String := none
  childField : Option String := none
deriving DecidableEq, Inhabited

namespace Relationship

/-- A relationship declared on the member of its own name. -/
def named (name rootEntity childEntity : String) : Relationship :=
  { name, member := name, rootEntity, childEntity }

/-- The relationship declared on another member. -/
def onMember (r : Relationship) (member : String) : Relationship := { r with member }

/-- The relationship with the two attributes that it joins. -/
def joining (r : Relationship) (rootField childField : String) : Relationship :=
  { r with rootField := some rootField, childField := some childField }

end Relationship

/-- One declaration of an entity type. -/
inductive Declaration where
  /-- Maps a scalar slot to an attribute. -/
  | scalar (slot : Slot) (member wire : String)
  /-- Maps a linked entity to a lookup attribute.  The targets are the entities that the lookup may
  point at; they count only for a linked type without names of its own. -/
  | link (slot : String) (linked : TypeName) (member wire : String) (targets : List String)
  /-- The last field holds an option code. -/
  | choice
  /-- The last field's entity is fetched by a follow-up lookup. -/
  | eager
  /-- The last field is never written back. -/
  | readOnly
  /-- The last field's attribute is the state attribute. -/
  | stateCode
  | stateCodeNamed (name : String)
  /-- The last field's attribute is the status attribute. -/
  | statusCode
  | statusCodeNamed (name : String)
  | relationship (r : Relationship)
  /-- The entity's name stands as it is for its record set. -/
  | verbatim
deriving DecidableEq

end TypedRecords
