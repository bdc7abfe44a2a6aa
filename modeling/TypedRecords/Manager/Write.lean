/-
Writing: insertions, updates, states and associations.

A manager that only reads refuses every write before anything else happens.  Otherwise an entity is
first written as a record, and only then is the store asked; a failure of either is one fault and
the answer "no".  An insertion that succeeds leaves the entity with its new identity and the record
as it was sent under that identity.
-/
import TypedRecords.Manager

namespace TypedRecords.Manager

variable {σ : Type}

/-- A write, refused with the operation's name when the manager only reads. -/
def writing {α : Type} (m : Manager σ) (operation : String) (run : Run σ α) :
    Run σ (Except Error α) := do
  if m.config.readOnly then return .error (.policyViolation operation)
  return .ok (← run)

/-- Sends a change; a failure is a fault and means "no". -/
def change (m : Manager σ) (r : Request) (toBool : r.Answer → Bool) : Run σ Bool := do
  match ← m.send r with
  | .ok answer => return toBool answer
  | .error e =>
    report (.store e)
    return false

/-- The record to send for an entity of a type, and whether its name stands as it is. -/
def outgoing (m : Manager σ) (type : TypeName) (e : Entity) : Run σ (Option (Record × Bool)) := do
  ask (Mapping.writeAsks type)
  match e.toRecord m.catalog m.converters type with
  | .error error =>
    report (.mapping error)
    return none
  | .ok record =>
    ask [type]
    return some (record, m.catalog.verbatim type)

/-- An entity after its record was created under an identity. -/
def created (e : Entity) (record : Record) (id : Identity) : Entity :=
  { e with header := { e.header with
      id, entity := record.entity, record := some { record with id } } }

/-- Creates an entity's record; gives whether it was created, and the entity then. -/
def insertion (m : Manager σ) (type : TypeName) (e : Entity) : Run σ (Bool × Entity) := do
  match ← m.outgoing type e with
  | none => return (false, e)
  | some (record, verbatim) =>
    match ← m.send (.create record verbatim) with
    | .ok id => return (true, created e record id)
    | .error error =>
      report (.store error)
      return (false, e)

/-- Creates the record of an entity; on success the entity takes over the new identity. -/
def insert (m : Manager σ) (type : TypeName) (e : Entity) : Run σ (Except Error Bool × Entity) := do
  match ← m.writing "insert" (m.insertion type e) with
  | .ok (done, after) => return (.ok done, after)
  | .error error => return (.error error, e)

/-- Writes an entity back to its record. -/
def update (m : Manager σ) (type : TypeName) (e : Entity) : Run σ (Except Error Bool) :=
  m.writing "update" do
    match ← m.outgoing type e with
    | none => return false
    | some (record, verbatim) => m.change (.update record verbatim) id

/-- Writes an entity back when it has an identity, and creates its record otherwise. -/
def insertOrUpdate (m : Manager σ) (type : TypeName) (e : Entity) :
    Run σ (Except Error Bool × Entity) := do
  if e.header.id.isNil then m.insert type e
  else return (← m.update type e, e)

/-- Sets the state and status codes of a record. -/
def setState (m : Manager σ) (target : Reference) (state status : Int32) :
    Run σ (Except Error Bool) :=
  m.writing "set_state" (m.change (.setState target state status false) id)

/-- Sets the lifecycle state of a record, with the state's own status unless one is given. -/
def setLifecycle (m : Manager σ) (target : Reference) (state : Lifecycle)
    (status : Option Int32) : Run σ (Except Error Bool) :=
  m.setState target state.code (status.getD state.defaultStatus)

/-- Activates or deactivates a record. -/
def setActive (m : Manager σ) (target : Reference) (active : Bool) (status : Option Int32) :
    Run σ (Except Error Bool) :=
  m.setLifecycle target (if active then .active else .inactive) status

/-- Associates two records through a relationship of the store. -/
def associate (m : Manager σ) (root child : Reference) (relationship : String) :
    Run σ (Except Error Bool) :=
  m.writing "associate" (m.change (.associate root child relationship false) id)

/-- The relationship declared on a member of a type; none is a fault. -/
def relationshipName? (m : Manager σ) (type : TypeName) (member : String) :
    Run σ (Option String) := do
  match ← m.mapped? type with
  | none => return none
  | some s =>
    match s.relationship? member with
    | some r => return some r.name
    | none =>
      report (.mapping ⟨s.entity, member, .noRelationship⟩)
      return none

/-- Associates an entity with a record through the relationship declared on a member. -/
def associateRelated (m : Manager σ) (type : TypeName) (e : Entity) (related : Reference)
    (member : String) : Run σ (Except Error Bool) := do
  if m.config.readOnly then return .error (.policyViolation "associate_related")
  match ← m.relationshipName? type member with
  | some relationship => m.associate e.reference related relationship
  | none => return .ok false

end TypedRecords.Manager
