/-
Schemas: the field table of an entity type.

A schema is built by replaying a type's declarations.  Attribute names are trimmed and stand once
each: a later declaration of a name takes the earlier one's place in the table, modifiers and all.
From the finished table follow the links, one for each entity a lookup field may point at, in field
order, each with the identity attribute of the entity that it leads to.
-/
import TypedRecords.Schema.Declaration
import TypedRecords.Text.Blank

namespace TypedRecords

/-- Where a field's member is found in an entity. -/
inductive Binding where
  | scalar (slot : Slot)
  | link (slot : String) (linked : TypeName)
deriving DecidableEq

/-- One mapped member. -/
structure Field where
  member : String
  /-- The name of the attribute. -/
  wire : String
  binding : Binding
  /-- The attribute holds an option code. -/
  isChoice : Bool := false
  /-- The linked entity is fetched by a follow-up lookup and not joined. -/
  eager : Bool := false
  /-- Never written back. -/
  readOnly : Bool := false
  /-- The entities that a lookup may point at. -/
  targets : List String := []
deriving DecidableEq

namespace Field

/-- The linked type of a field that holds an entity. -/
def linked? (f : Field) : Option TypeName :=
  match f.binding with
  | .scalar _ => none
  | .link _ linked => some linked

/-- The field holds a linked entity. -/
def isLink (f : Field) : Bool := f.linked?.isSome

/-- The field's entity is joined into queries. -/
def isJoined (f : Field) : Bool := f.isLink && !f.eager

end Field

/-- The attribute that holds an entity's identity. -/
def identityAttribute (entity : String) : String := entity ++ "id"

/-- The step from a lookup attribute to one entity that it may point at. -/
structure Link where
  member : String
  sourceEntity : String
  sourceField : String
  childEntity : String
  childField : String
  eager : Bool
deriving DecidableEq, Inhabited

/-- The default name of the state attribute. -/
def defaultStateField : String := "statecode"

/-- The default name of the status attribute. -/
def defaultStatusField : String := "statuscode"

/-- The field table of an entity type with its names. -/
structure Schema where
  entity : String
  names : List String
  fields : List Field := []
  links : List Link := []
  relationships : List Relationship := []
  stateField : String := defaultStateField
  statusField : String := defaultStatusField
  verbatim : Bool := false
deriving DecidableEq

namespace Schema

/-! ### Replaying declarations -/

/-- A schema in the making, with the place of the field declared last. -/
structure Draft where
  schema : Schema
  last : Option Nat := none

namespace Draft

/-- Puts a field in the place of the one with its attribute name, or at the end. -/
def push (d : Draft) (f : Field) : Draft :=
  match d.schema.fields.findIdx? (·.wire = f.wire) with
  | some i => ⟨{ d.schema with fields := d.schema.fields.set i f }, some i⟩
  | none => ⟨{ d.schema with fields := d.schema.fields ++ [f] }, some d.schema.fields.length⟩

/-- Changes the field declared last, if any. -/
def modifyLast (d : Draft) (change : Field → Field) : Draft :=
  match d.last with
  | some i => { d with schema.fields := d.schema.fields.modify i change }
  | none => d

/-- The attribute of the field declared last. -/
def lastWire? (d : Draft) : Option String :=
  (d.last.bind (d.schema.fields[·]?)).map (·.wire)

/-- Replays one declaration; `namesOf` gives the names that a linked type declares. -/
def declare (namesOf : TypeName → List String) (d : Draft) : Declaration → Draft
  | .scalar slot member wire =>
    d.push { member, wire := Text.trim wire, binding := .scalar slot
             isChoice := slot.type.isCoded }
  | .link slot linked member wire targets =>
    let targets := match namesOf linked with
      | name :: _ => [name]
      | [] => targets.map Text.trim
    d.push { member, wire := Text.trim wire, binding := .link slot linked, targets }
  | .choice => d.modifyLast ({ · with isChoice := true })
  | .eager => d.modifyLast ({ · with eager := true })
  | .readOnly => d.modifyLast ({ · with readOnly := true })
  | .stateCode => { d with schema.stateField := d.lastWire?.getD d.schema.stateField }
  | .stateCodeNamed name => { d with schema.stateField := name }
  | .statusCode => { d with schema.statusField := d.lastWire?.getD d.schema.statusField }
  | .statusCodeNamed name => { d with schema.statusField := name }
  | .relationship r => { d with schema.relationships := d.schema.relationships ++ [r] }
  | .verbatim => { d with schema.verbatim := true }

end Draft

/-- The links of a field: one for each target. -/
def linksOf (entity : String) (f : Field) : List Link :=
  if f.isLink then
    f.targets.map fun target =>
      ⟨f.member, entity, f.wire, target, identityAttribute target, f.eager⟩
  else []

/-- The schema of a type with these names and declarations. -/
def ofDeclarations (namesOf : TypeName → List String) (names : List String)
    (declarations : List Declaration) : Schema :=
  let names := names.map Text.trim
  let schema := (declarations.foldl (Draft.declare namesOf) ⟨⟨names.headD "", names, [], [], [],
    defaultStateField, defaultStatusField, false⟩, none⟩).schema
  { schema with links := schema.fields.flatMap (linksOf schema.entity) }

/-! ### Questions to a schema -/

/-- The attribute that holds the identity. -/
def identityField (s : Schema) : String := identityAttribute s.entity

/-- The name stands for the identity, in any case of its ASCII letters. -/
def isIdentityName (name : String) : Bool := name.toList.map Char.toLower = ['i', 'd']

/-- The field of a member. -/
def field? (s : Schema) (member : String) : Option Field := s.fields.find? (·.member = member)

/-- The field of an attribute. -/
def fieldByWire? (s : Schema) (wire : String) : Option Field := s.fields.find? (·.wire = wire)

/-- The attribute a key stands for: the identity, a member, or the key itself. -/
def resolveKey (s : Schema) (key : String) : String :=
  if isIdentityName key then s.identityField
  else match s.field? key with
    | some f => f.wire
    | none => key

/-- The links of a lookup attribute. -/
def linksFrom (s : Schema) (wire : String) : List Link := s.links.filter (·.sourceField = wire)

/-- The link of a lookup attribute to `target`, or its first link when no target is known. -/
def findLink? (s : Schema) (wire : String) (target : Option String) : Option Link :=
  match target with
  | some target => (s.linksFrom wire).find? (·.childEntity = target)
  | none => (s.linksFrom wire).head?

/-- The place of a member among the joined fields, counted from one. -/
def joinPlace? (s : Schema) (member : String) : Option Nat :=
  ((s.fields.filter Field.isJoined).findIdx? (·.member = member)).map (· + 1)

/-- The links joined into queries. -/
def joinedLinks (s : Schema) : List Link := s.links.filter (!·.eager)

/-- The links resolved by follow-up lookups. -/
def eagerLinks (s : Schema) : List Link := s.links.filter (·.eager)

/-- The relationship with a name, or declared on a member. -/
def relationship? (s : Schema) (key : String) : Option Relationship :=
  s.relationships.find? fun r => r.name = key || r.member = key

end Schema

end TypedRecords
