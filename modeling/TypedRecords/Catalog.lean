/-
Catalogs: the entity types there are.

A catalog gives each type its declared names, its declarations and its fresh entity.  The first name
is the entity's name in the store; a type without names is not mapped to an entity and has no schema.
What a fresh entity holds is the type's own business: members and links may be set from the start, and
so may all of the header but the record.  One type is always there and never mapped: a dynamic entity
holds its record directly, and a fresh one is empty.
-/
import TypedRecords.Entity

namespace TypedRecords

/-- What a type says about itself. -/
structure EntityType where
  /-- The names of the entity, the store's first; none for an unmapped type. -/
  names : List String := []
  declarations : List Declaration := []
  /-- The slots of the linked entities that are always there. -/
  required : List String := []
  /-- The entity of the type that nothing was written to. -/
  fresh : Entity := {}
  /-- It was read from no record. -/
  fresh_record : fresh.header.record = none := by exact Entity.record_empty

instance : Inhabited EntityType := ⟨{}⟩

/-- The type of the entities that hold their record directly. -/
def dynamicType : TypeName := "DynamicEntity"

/-- The entity types by name. -/
structure Catalog where
  describe : TypeName → EntityType

namespace Catalog

/-- The names that a type declares. -/
def names (catalog : Catalog) (type : TypeName) : List String :=
  if type = dynamicType then [] else (catalog.describe type).names

/-- The type is mapped to an entity. -/
def isMapped (catalog : Catalog) (type : TypeName) : Bool := !(catalog.names type).isEmpty

/-- The schema of a mapped type. -/
def schema? (catalog : Catalog) (type : TypeName) : Option Schema :=
  if catalog.isMapped type then
    some (.ofDeclarations catalog.names (catalog.names type) (catalog.describe type).declarations)
  else none

/-- Requests for the type use its entity's name as it stands; never for an unmapped type. -/
def verbatim (catalog : Catalog) (type : TypeName) : Bool :=
  match catalog.schema? type with
  | some s => s.verbatim
  | none => false

/-- The entity of a type that nothing was written to. -/
def fresh (catalog : Catalog) (type : TypeName) : Entity :=
  if type = dynamicType then {} else (catalog.describe type).fresh

/-- What a link of a type holds when there is nothing to fill it from: no entity, or a fresh one if
there is always one. -/
def vacant (catalog : Catalog) (type : TypeName) (slot : String) (linked : TypeName) :
    Option Entity :=
  if slot ∈ (catalog.describe type).required then some (catalog.fresh linked) else none

theorem isSome_schema? (catalog : Catalog) (type : TypeName) :
    (catalog.schema? type).isSome = catalog.isMapped type := by
  cases h : catalog.isMapped type <;> simp [schema?, h]

theorem schema?_dynamicType (catalog : Catalog) : catalog.schema? dynamicType = none := by
  simp [schema?, isMapped, names]

theorem fresh_dynamicType (catalog : Catalog) : catalog.fresh dynamicType = {} := if_pos rfl

/-- A fresh entity holds no record. -/
theorem fresh_record (catalog : Catalog) (type : TypeName) :
    (catalog.fresh type).header.record = none := by
  unfold fresh
  split
  · exact Entity.record_empty
  · exact (catalog.describe type).fresh_record

end Catalog

/-- Adds a name to a list of names seen so far. -/
def seeing (seen : List TypeName) (type : TypeName) : List TypeName :=
  if type ∈ seen then seen else seen ++ [type]

end TypedRecords
