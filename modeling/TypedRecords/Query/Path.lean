/-
Paths: where a chain of members leads.

One member leads to an attribute of the entity itself.  Two lead through a linked member: to the
lookup attribute when the second is the identity, else into the joined entity, which a query knows
by an alias.  The alias is the name of the link's first target followed by the member's place among
the joined fields.  Links that are fetched after the query cannot be looked into.
-/
import TypedRecords.Catalog
import TypedRecords.Error
import TypedRecords.Record

namespace TypedRecords.Query

/-- Where a path leads, before the joined type's own names are asked for. -/
inductive Location where
  /-- An attribute of the entity itself. -/
  | own (attr : String)
  /-- A member of the entity of type `linked`, joined under `joinName`. -/
  | joined (linked : TypeName) (joinName member : String)
deriving DecidableEq

/-- An attribute, and the alias of the joined entity that has it. -/
structure ResolvedField where
  attr : String
  joinName : Option String := none
deriving DecidableEq, Inhabited

/-- Finds where two members lead. -/
def locateLinked (s : Schema) (outer inner : String) : Except CompileError Location :=
  match s.field? outer with
  | none => .error (.notALink s.entity outer)
  | some f =>
    match f.binding with
    | .scalar _ => .error (.notALink s.entity outer)
    | .link _ linked =>
      if Schema.isIdentityName inner then .ok (.own f.wire)
      else match s.joinPlace? f.member with
        | none => .error (.followUpLink outer inner)
        | some place =>
          match s.findLink? f.wire none with
          | none => .error (.notALink s.entity outer)
          | some link => .ok (.joined linked (joinAlias link.childEntity place) inner)

/-- Finds where a path leads. -/
def locate (s : Schema) : List String → Except CompileError Location
  | [member] => .ok (.own (s.resolveKey member))
  | [outer, inner] => locateLinked s outer inner
  | path => .error (.chainTooDeep path)

/-- The attribute at a location; a joined type without a schema has its members' names as
attributes. -/
def Location.field (catalog : Catalog) : Location → ResolvedField
  | own attr => ⟨attr, none⟩
  | joined linked joinName member =>
    match catalog.schema? linked with
    | some s => ⟨s.resolveKey member, some joinName⟩
    | none => ⟨member, some joinName⟩

/-- The type whose schema a location asks for. -/
def Location.asks : Location → List TypeName
  | own _ => []
  | joined linked _ _ => [linked]

/-- The attribute that a path leads to. -/
def resolve (catalog : Catalog) (s : Schema) (path : List String) :
    Except CompileError ResolvedField :=
  (·.field catalog) <$> locate s path

end TypedRecords.Query
