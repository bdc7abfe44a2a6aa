/-
Fetching: pages of records as entities.

A fetched page degrades record by record: a failed request is one fault and an empty page, a record
that does not map is one fault and left out.  Then each entity's eager links are resolved, one
lookup for every eager field whose attribute is a lookup to a record; a lookup that brings nothing
leaves the placeholder in place.
-/
import TypedRecords.Manager
import TypedRecords.Query.Search

namespace TypedRecords

open Query (PageQuery Search Condition)

/-- A page of entities. -/
structure Batch where
  entities : List Entity := []
  more : Bool := false
  total : Option UInt64 := none
  limitExceeded : Bool := false
  page : UInt32 := 0
deriving Inhabited

/-- An eager link to resolve. -/
structure FollowUp where
  slot : String
  linked : TypeName
  lookup : Reference
deriving DecidableEq

/-- The lookups to records in a record's eager fields. -/
def Schema.eagerLookups (s : Schema) (record : Record) : List FollowUp :=
  s.fields.filterMap fun f =>
    match f.binding, f.eager with
    | .link slot linked, true =>
      ((record.get? f.wire).bind Value.asReference?).map fun lookup => ⟨slot, linked, lookup⟩
    | _, _ => none

/-- The query for the record that a lookup points at. -/
def Reference.pageQuery (r : Reference) (verbatim : Bool) : PageQuery :=
  let condition := Condition.compare (identityAttribute r.entity) .equal r.id.canonical
  ({ entity := r.entity, filter := some ⟨.and, [.condition condition]⟩, verbatim }
    : PageQuery).atPage 1 1

/-- A query asks for the one record that a lookup points at, by its identity and nothing else, and
with a hint about the entity's name. -/
structure Query.PageQuery.AsksFor (q : PageQuery) (r : Reference) (hint : Bool) : Prop where
  entity : q.entity = r.entity
  filter : q.filter = some ⟨.and, [.condition
    { attr := identityAttribute r.entity, operator := .equal, value := some r.id.canonical }]⟩
  page : q.page = 1
  pageSize : q.pageSize = 1
  verbatim : q.verbatim = hint

theorem Reference.asksFor_pageQuery (r : Reference) (verbatim : Bool) :
    (r.pageQuery verbatim).AsksFor r verbatim := ⟨rfl, rfl, rfl, rfl, rfl⟩

namespace Manager

variable {σ : Type}

/-! ### One page -/

/-- Reads records as a type, reporting and leaving out those that do not map. -/
def readEach (m : Manager σ) (type : TypeName) : List Record → Run σ (List Entity)
  | [] => return []
  | record :: rest => do
    match ← m.ofRecord type record with
    | .ok e => return e :: (← m.readEach type rest)
    | .error e =>
      report (.mapping e)
      m.readEach type rest

/-- The first record of a page. -/
def fetchRecord (m : Manager σ) (q : PageQuery) : Run σ (Option Record) := do
  match ← m.send (.retrieve q) with
  | .ok page => return page.records.head?
  | .error e =>
    report (.store e)
    return none

/-- The eager links to resolve in an entity of a type. -/
def followUps (m : Manager σ) (type : TypeName) (e : Entity) : Run σ (List FollowUp) := do
  if !m.config.resolveEager then return []
  match ← m.schema? type, e.header.record with
  | some s, some record =>
    let lookups := s.eagerLookups record
    ask (lookups.map (·.linked))
    return lookups.filter (!·.lookup.id.isNil)
  | _, _ => return []

/-- Resolves one eager link. -/
def followUp (m : Manager σ) (e : Entity) (f : FollowUp) : Run σ Entity := do
  match ← m.fetchRecord (f.lookup.pageQuery (m.catalog.verbatim f.linked)) with
  | none => return e
  | some record =>
    match ← m.ofRecord f.linked record with
    | .ok child =>
      return e.setLink f.slot (some (Mapping.settle { record, lookup := some f.lookup } child))
    | .error error =>
      report (.mapping error)
      return e

/-- Resolves the eager links of an entity of a type. -/
def resolveEager (m : Manager σ) (type : TypeName) (e : Entity) : Run σ Entity := do
  (← m.followUps type e).foldlM m.followUp e

/-- Fetches a page of a type's entities. -/
def fetch (m : Manager σ) (type : TypeName) (q : PageQuery) : Run σ Batch := do
  match ← m.send (.retrieve q) with
  | .error e =>
    report (.store e)
    return { page := q.page }
  | .ok page =>
    let entities ← m.readEach type page.records
    return {
      entities := ← entities.mapM (m.resolveEager type)
      more := page.more
      total := page.total
      limitExceeded := page.limitExceeded
      page := page.page }

/-! ### Queries -/

/-- The page query of a search among a type's entities; a failure is a fault. -/
def typedQuery (m : Manager σ) (type : TypeName) (search : Search) :
    Run σ (Option PageQuery) := do
  match ← m.mapped? type with
  | none => return none
  | some s =>
    ask (search.asks m.catalog s)
    match search.toPageQuery m.catalog s with
    | .ok q => return some { q with countTotal := m.config.countTotal }
    | .error e =>
      report (.compilation e)
      return none

/-- The page query of a search among an entity's records; a failure is a fault. -/
def untypedQuery (m : Manager σ) (entity : String) (search : Search) :
    Run σ (Option PageQuery) := do
  match search.toUntypedPageQuery entity with
  | .ok q => return some { q with countTotal := m.config.countTotal }
  | .error e =>
    report (.compilation e)
    return none

/-- The search for one entity, in any state. -/
def identitySearch (id : Identity) : Search :=
  { ({} : Search).withKeyEqual "id" (.ofMember id) with state := .all, page := 1, pageSize := 1 }

/-- The entity of a type with an identity. -/
def findById (m : Manager σ) (type : TypeName) (id : Identity) : Run σ (Option Entity) := do
  match ← m.mapped? type with
  | none => return none
  | some s =>
    match (identitySearch id).toPageQuery m.catalog s with
    | .error e =>
      report (.compilation e)
      return none
    | .ok q => return (← m.fetch type { q with countTotal := false }).entities.head?

/-- The record that a lookup points at, as a dynamic entity. -/
def findByReference (m : Manager σ) (r : Reference) : Run σ (Option Entity) := do
  return (← m.fetchRecord (r.pageQuery false)).map Entity.around

/-! ### Casts -/

/-- Reads a record as a type and resolves its eager links. -/
def cast (m : Manager σ) (type : TypeName) (record : Option Record) :
    Run σ (Except MappingError Entity) := do
  let read ← match record with
    | some r => m.ofRecord type r
    | none => pure (.ok (m.catalog.fresh type))
  match read with
  | .ok e => return .ok (← m.resolveEager type e)
  | .error e => return .error e

/-- Reads the records that entities hold as a type, up to the first that does not map. -/
def castAll (m : Manager σ) (type : TypeName) :
    List Entity → Run σ (Except MappingError (List Entity))
  | [] => return .ok []
  | e :: rest => do
    match ← m.cast type e.header.record with
    | .error error => return .error error
    | .ok first =>
      match ← m.castAll type rest with
      | .error error => return .error error
      | .ok others => return .ok (first :: others)

/-- Reads the records that entities hold as a type, and adds what is read to the end of `cast`. -/
def castOnto (m : Manager σ) (type : TypeName) (cast : List Entity) :
    List Entity → Run σ (Except MappingError (List Entity))
  | [] => return .ok cast
  | e :: rest => do
    match ← m.cast type e.header.record with
    | .error error => return .error error
    | .ok next => m.castOnto type (cast ++ [next]) rest

/-- Reads the records that entities hold as a type in a loop that waits for each, up to the first that
does not map. -/
def castInTurn (m : Manager σ) (type : TypeName) (entities : List Entity) :
    Run σ (Except MappingError (List Entity)) :=
  m.castOnto type [] entities

end Manager

end TypedRecords
