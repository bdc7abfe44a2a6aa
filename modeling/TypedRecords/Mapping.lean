/-
Mapping records to entities and back.

Reading starts from the type's fresh entity and goes through its fields in order.  An attribute that
is present passes its kind's converter, and the choice coercion when the field asks for it; then it is
written to a scalar slot, or it fills a link.  A joined link is filled from the attributes flattened
under its alias, whose number counts the joined fields met so far; a link fetched later is filled with
a placeholder that knows only its identity.  Writing back goes the other way and sends one lookup for
a linked entity.

The nested reading of a linked record is an argument of the reading of its parent, so each level is
a plain walk over fields; `readWithin` closes the loop with a bound on the depth.
-/
import TypedRecords.Catalog
import TypedRecords.Converters
import TypedRecords.Entity
import TypedRecords.Error

namespace TypedRecords

/-! ### Reading one field -/

/-- The record to fill a link from. -/
structure Linked where
  record : Record
  /-- The identity that the linked entity takes over. -/
  parent : Option Identity := none
  /-- The lookup that leads to it. -/
  lookup : Option Reference := none
deriving DecidableEq

/-- What a record does to one field's member. -/
inductive Filling where
  /-- The attribute is absent: the member keeps its value. -/
  | untouched
  | scalar (slot : Slot) (s : Scalar)
  /-- A link to fill, or to clear when there is nothing to fill it from. -/
  | link (slot : String) (linked : TypeName) (content : Option Linked)
deriving DecidableEq

namespace Mapping

/-- A failed conversion as an error of the field. -/
def located {α : Type} (s : Schema) (f : Field) (result : Except ConversionError α) :
    Except MappingError α :=
  result.mapError fun e => ⟨s.entity, f.wire, .conversion e⟩

/-- An attribute's value as it comes in: converted, and coerced to an option code if need be. -/
def incoming (converters : Converters) (f : Field) (raw : Value) :
    Except ConversionError Scalar := do
  let (s, _) ← converters.apply (Scalar.ofValue raw)
  if f.isChoice then s.toChoice else .ok s

/-- The record for a link that is fetched later: its identity and nothing else. -/
def placeholder (lookup : Reference) : Record :=
  ({ entity := lookup.entity, id := lookup.id } : Record).set
    (identityAttribute lookup.entity) (.guid lookup.id)

/-- The content of a link that is fetched later. -/
def pending (s : Schema) (f : Field) : Scalar → Except MappingError (Option Linked)
  | .null => .ok none
  | .reference lookup => .ok (some { record := placeholder lookup, lookup := some lookup })
  | other => .error ⟨s.entity, f.wire, .notALookup other.kind⟩

/-- The lookup in a scalar. -/
def lookup? : Scalar → Option Reference
  | .reference r => some r
  | _ => none

/-- The content of the joined link at a place: what its record flattened into `record`. -/
def joined (s : Schema) (record : Record) (place : Nat) (f : Field) (value : Scalar) :
    Except MappingError (Option Linked) :=
  if value.isNull then .ok none
  else
    let target := (lookup? value).map (·.entity)
    match s.findLink? f.wire target with
    | none => .error ⟨s.entity, f.wire, .noLink (target.getD "")⟩
    | some link => .ok (some
        { record := record.extract link.childEntity place
          parent := some record.id
          lookup := lookup? value })

/-- What a record does to a field that is the `place`-th joined one if it is joined. -/
def filling (s : Schema) (converters : Converters) (record : Record) (place : Nat) (f : Field) :
    Except MappingError Filling :=
  match record.get? f.wire with
  | none => .ok .untouched
  | some raw => do
    let value ← located s f (incoming converters f raw)
    match f.binding with
    | .scalar slot => .ok (.scalar slot value)
    | .link slot linked =>
      .link slot linked <$> if f.eager then pending s f value else joined s record place f value

/-- What a record does to each field.  A joined field whose attribute is present takes the next
place, null or not. -/
def fillings (s : Schema) (converters : Converters) (record : Record) :
    (place : Nat) → List Field → List (Field × Except MappingError Filling)
  | _, [] => []
  | place, f :: rest =>
    (f, filling s converters record place f) ::
      fillings s converters record
        (if f.isJoined && (record.get? f.wire).isSome then place + 1 else place) rest

/-! ### Reading a record -/

/-- A linked entity as its parent holds it. -/
def settle (content : Linked) (e : Entity) : Entity :=
  { e with header := { e.header with
      id := content.parent.getD e.header.id
      entity := if e.header.entity = "" then content.record.entity else e.header.entity
      lookup := content.lookup } }

/-- The reading of a type's record. -/
abbrev Reader := TypeName → Record → Except MappingError Entity

/-- What the links of a type hold when there is nothing to fill them from, by slot and linked type. -/
abbrev Vacancy := String → TypeName → Option Entity

/-- Fills a link by reading its record. -/
def assign (nested : Reader) (vacant : Vacancy) (e : Entity) (slot : String) (linked : TypeName) :
    Option Linked → Except MappingError Entity
  | none => .ok (e.setLink slot (vacant slot linked))
  | some content => do
    let child ← nested linked content.record
    return e.setLink slot (some (settle content child))

/-- Fills one member. -/
def fill (nested : Reader) (vacant : Vacancy) (s : Schema) (e : Entity)
    (step : Field × Except MappingError Filling) : Except MappingError Entity := do
  match ← step.2 with
  | .untouched => .ok e
  | .scalar slot value => do
    let members ← located s step.1 (e.members.write slot value)
    return { e with members }
  | .link slot linked content => assign nested vacant e slot linked content

/-- A fresh header with what a record says about its entity. -/
def header (fresh : Header) (stateField statusField : String) (record : Record) : Header :=
  { fresh with
    id := record.id
    entity := record.entity
    record := some record
    state := (((record.get? stateField).bind Value.asInt32?).bind Lifecycle.ofCode?).getD .unknown
    status := (record.get? statusField).bind Value.asInt32? }

/-- The fresh entity of a type with the header that a record gives it. -/
def started (catalog : Catalog) (type : TypeName) (stateField statusField : String)
    (record : Record) : Entity :=
  let fresh := catalog.fresh type
  { fresh with header := header fresh.header stateField statusField record }

/-- Reads a record as a type, with `nested` for the linked records. -/
def readWith (nested : Reader) (catalog : Catalog) (converters : Converters) : Reader :=
  fun type record =>
    if record.isBlank then .ok (catalog.fresh type)
    else match catalog.schema? type with
      | none => .ok (started catalog type defaultStateField defaultStatusField record)
      | some s =>
        (fillings s converters record 1 s.fields).foldlM (fill nested (catalog.vacant type) s)
          (started catalog type s.stateField s.statusField record)

/-- Reads a record whose links nest less than `depth` levels. -/
def readWithin (catalog : Catalog) (converters : Converters) : Nat → Reader
  | 0 => fun _ record => .error ⟨record.entity, "", .nestedTooDeep⟩
  | depth + 1 => readWith (readWithin catalog converters depth) catalog converters

/-- The most levels that linked records may nest.  Without a converter that makes lookups out of
other values five are the most there can be, and the bound is never met.  With one, a record may lead
to itself: a reading without a bound would go down for ever where this one errs as `nestedTooDeep`. -/
def depthLimit : Nat := 1000

end Mapping

/-- The entity of a type that a record stands for. -/
def Entity.ofRecord (catalog : Catalog) (converters : Converters) (type : TypeName)
    (record : Record) : Except MappingError Entity :=
  Mapping.readWithin catalog converters Mapping.depthLimit type record

/-- The entity of a type that a record stands for, a fresh one without a record. -/
def Entity.ofRecord? (catalog : Catalog) (converters : Converters) (type : TypeName) :
    Option Record → Except MappingError Entity
  | none => .ok (catalog.fresh type)
  | some record => Entity.ofRecord catalog converters type record

namespace Mapping

/-! ### The calls that a reading makes -/

/-- The linked records read while filling members, up to the first failure. -/
def calls (nested : Reader) (vacant : Vacancy) (s : Schema) :
    Entity → List (Field × Except MappingError Filling) → List (TypeName × Record)
  | _, [] => []
  | e, step :: rest =>
    let own := match step.2 with
      | .ok (.link _ linked (some content)) => [(linked, content.record)]
      | _ => []
    own ++ match fill nested vacant s e step with
      | .ok e => calls nested vacant s e rest
      | .error _ => []

/-- The linked records that reading a record as a type reads in turn. -/
def callsWith (nested : Reader) (catalog : Catalog) (converters : Converters) (type : TypeName)
    (record : Record) : List (TypeName × Record) :=
  if record.isBlank then []
  else match catalog.schema? type with
    | none => []
    | some s =>
      calls nested (catalog.vacant type) s
        (started catalog type s.stateField s.statusField record)
        (fillings s converters record 1 s.fields)

/-- The types whose schemas a reading asks for. -/
def asksWithin (catalog : Catalog) (converters : Converters) :
    Nat → TypeName → Record → List TypeName
  | 0, _, _ => []
  | depth + 1, type, record =>
    if record.isBlank then []
    else type ::
      (callsWith (readWithin catalog converters depth) catalog converters type record).flatMap
        fun (linked, nested) => asksWithin catalog converters depth linked nested

/-- The types whose schemas reading a record asks for. -/
def asks (catalog : Catalog) (converters : Converters) (type : TypeName) (record : Record) :
    List TypeName :=
  asksWithin catalog converters depthLimit type record

/-! ### Writing back -/

/-- A field that is written back: neither read-only nor left out by the header's list. -/
def isWritable (h : Header) (f : Field) : Bool := !f.readOnly && h.isMarked f.wire f.member

/-- A member's value as it goes out: converted, or else coerced to an option code if need be. -/
def outgoing (converters : Converters) (f : Field) (value : Scalar) :
    Except ConversionError Scalar := do
  let (s, converted) ← converters.apply value
  if !converted && f.isChoice then s.toChoice else .ok s

/-- The record of an entity with its lifecycle and no members. -/
def basis (s : Schema) (h : Header) : Record :=
  let record : Record := { entity := s.entity, id := h.id }
  let record := if h.state = .unknown then record
    else record.set s.stateField (.optionSet h.state.code)
  match h.status with
  | some status => record.set s.statusField (.optionSet status)
  | none => record

/-- Writes one field's member to a record. -/
def writeBack (s : Schema) (converters : Converters) (e : Entity) (record : Record) (f : Field) :
    Except MappingError Record :=
  let value := e.read f
  if !isWritable e.header f || value.isNull then .ok record
  else do
    let out ← located s f (outgoing converters f value)
    return record.set f.wire out.toValue

end Mapping

/-- The record to send for an entity of a type: a dynamic one's own, else its lifecycle and its
writable members that are not null. -/
def Entity.toRecord (catalog : Catalog) (converters : Converters) (type : TypeName) (e : Entity) :
    Except MappingError Record :=
  if type = dynamicType then .ok e.heldRecord
  else match catalog.schema? type with
    | none => .error ⟨type, "", .unmapped⟩
    | some s => s.fields.foldlM (Mapping.writeBack s converters e) (Mapping.basis s e.header)

/-- The types whose schemas writing an entity back asks for. -/
def Mapping.writeAsks (type : TypeName) : List TypeName :=
  if type = dynamicType then [] else [type]

end TypedRecords
