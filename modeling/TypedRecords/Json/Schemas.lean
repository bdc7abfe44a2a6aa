/-
Schemas in JSON.

A schema is written with its fields, its links and its relationships; a linked field shows the names
that its type declares.  Declarations are read from objects whose `do` says what is declared, so
that entity types can be described by data.  Which slots there are, and which types they link to, is
for the reader of a type to say.
-/
import TypedRecords.Catalog
import TypedRecords.Json.Decoder

namespace TypedRecords.Json

/-! ### Writing -/

def ofField (catalog : Catalog) (f : Field) : Json :=
  .members [
    ("member", .string f.member), ("wire", .string f.wire), ("choice", .bool f.isChoice),
    ("eager", .bool f.eager), ("read_only", .bool f.readOnly), ("link", .bool f.isLink),
    ("targets", list .string f.targets),
    ("linked", ofOption
      (fun type => .members [("type", .string type), ("names", list .string (catalog.names type))])
      f.linked?)]

def ofLink (l : Link) : Json :=
  .members [
    ("member", .string l.member), ("source_entity", .string l.sourceEntity),
    ("source_field", .string l.sourceField), ("child_entity", .string l.childEntity),
    ("child_field", .string l.childField), ("eager", .bool l.eager)]

def ofRelationship (r : Relationship) : Json :=
  .members [
    ("name", .string r.name), ("member", .string r.member),
    ("root_entity", .string r.rootEntity), ("child_entity", .string r.childEntity),
    ("root_field", ofOption .string r.rootField), ("child_field", ofOption .string r.childField)]

def ofSchema (catalog : Catalog) (s : Schema) : Json :=
  .members [
    ("entity", .string s.entity), ("names", list .string s.names),
    ("identity", .string s.identityField), ("fields", list (ofField catalog) s.fields),
    ("links", list ofLink s.links), ("relationships", list ofRelationship s.relationships),
    ("state", .string s.stateField), ("status", .string s.statusField),
    ("verbatim", .bool s.verbatim)]

/-! ### Reading -/

namespace Decoder

/-- The names of what a declaration object may hold. -/
def declarationNames : List String :=
  ["do", "slot", "member", "wire", "targets", "name", "root", "child", "root_field", "child_field"]

/-- A relationship, on a member of another name and with its attributes when they are given. -/
def relationship (p : Parts) : Option Relationship := do
  let r := Relationship.named (← p.required "name" string) (← p.required "root" string)
    (← p.required "child" string)
  let r := ((← p.optional "member" string).map r.onMember).getD r
  match ← p.optional "root_field" string, ← p.optional "child_field" string with
  | some root, some child => return r.joining root child
  | _, _ => return r

/-- A declaration of a type that has these scalar slots and, by slot, these linked types. -/
def declaration (slots : List Slot) (linked : List (String × TypeName)) :
    Decoder Declaration := fun room j => do
  let p ← parts declarationNames false room j
  let link (targets : List String) : Option Declaration := do
    let slot ← p.required "slot" string
    return .link slot (← linked.lookup slot) (← p.required "member" string)
      (← p.required "wire" string) targets
  match ← p.required "do" string with
  | "field" =>
    let name ← p.required "slot" string
    return .scalar (← slots.find? (·.name = name)) (← p.required "member" string)
      (← p.required "wire" string)
  | "link" => link []
  | "link_to" => link (← p.required "targets" (list string))
  | "choice" => some .choice
  | "eager" => some .eager
  | "read_only" => some .readOnly
  | "state_code" => some .stateCode
  | "state_code_named" => (p.required "name" string).map .stateCodeNamed
  | "status_code" => some .statusCode
  | "status_code_named" => (p.required "name" string).map .statusCodeNamed
  | "relationship" => (relationship p).map .relationship
  | "disable_pluralization" => some .verbatim
  | _ => none

end Decoder

end TypedRecords.Json
