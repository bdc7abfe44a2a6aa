/-
Managers: typed data access over a record store.

A manager brings together a catalog, converters, settings and a store.  What it does happens in a
session, which holds the store's state, the requests sent and the faults reported in the order they
came, and the types whose schemas were asked for.  An operation that cannot go on reports a fault and
gives an empty result; only a forbidden write is an error of its own.
-/
import TypedRecords.Config
import TypedRecords.FaultChannel
import TypedRecords.Mapping
import TypedRecords.Store

namespace TypedRecords

/-- What a manager works with. -/
structure Manager (σ : Type) where
  catalog : Catalog
  converters : Converters := .empty
  config : Config := {}
  store : RecordStore σ

/-- What a manager does that others see. -/
inductive Event where
  /-- A request goes to the store. -/
  | sent (r : Request)
  /-- A fault goes to the handlers. -/
  | reported (e : Error)
deriving DecidableEq

namespace Event

/-- The request of an event. -/
def request? : Event → Option Request
  | sent r => some r
  | reported _ => none

/-- The fault of an event. -/
def fault? : Event → Option Error
  | sent _ => none
  | reported e => some e

end Event

/-- What has happened so far. -/
structure Session (σ : Type) where
  store : σ
  /-- The requests sent and the faults reported, the earliest first. -/
  history : List Event := []
  faults : FaultChannel Nat Error := {}
  /-- The types whose schemas were asked for, each once. -/
  asked : List TypeName := []

/-- An operation in a session. -/
abbrev Run (σ α : Type) := StateM (Session σ) α

namespace Session

/-- A session over a store in a given state with a number of fault handlers. -/
def start {σ : Type} (store : σ) (handlers : Nat) : Session σ :=
  { store, faults := { handlers := List.range handlers } }

/-- The requests sent to the store, the earliest first. -/
def requests {σ : Type} (s : Session σ) : List Request := s.history.filterMap Event.request?

end Session

namespace Manager

variable {σ : Type}

/-- Sends a request to the store. -/
def send (m : Manager σ) (r : Request) : Run σ (Except StoreError r.Answer) := fun s =>
  let (answer, store) := m.store.answer r s.store
  (answer, { s with store, history := s.history ++ [.sent r] })

/-- Reports a fault to the handlers. -/
def report (e : Error) : Run σ Unit :=
  modify fun s =>
    { s with history := s.history ++ [.reported e], faults := s.faults.report .none e }

/-- Notes that types' schemas were asked for. -/
def ask (types : List TypeName) : Run σ Unit :=
  modify fun s => { s with asked := types.foldl seeing s.asked }

/-- The schema of a type. -/
def schema? (m : Manager σ) (type : TypeName) : Run σ (Option Schema) := do
  ask [type]
  return m.catalog.schema? type

/-- The schema of a type; an unmapped type is a fault. -/
def mapped? (m : Manager σ) (type : TypeName) : Run σ (Option Schema) := do
  match ← m.schema? type with
  | some s => return some s
  | none =>
    report (.unmapped type)
    return none

/-- Reads a record as a type. -/
def ofRecord (m : Manager σ) (type : TypeName) (record : Record) :
    Run σ (Except MappingError Entity) := do
  ask (Mapping.asks m.catalog m.converters type record)
  return Entity.ofRecord m.catalog m.converters type record

end Manager

end TypedRecords
