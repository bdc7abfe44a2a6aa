/-
What an operation does, as events.

An operation of a manager gives a value and leaves a session behind.  Everything of the session that
others see follows from the events: they are appended to the history, the store has answered their
requests in turn, and the handlers were told of their faults in turn.  `Does` says so of one run.
The laws below give the events of the basic operations and of a sequence, so what a larger operation
does is put together from what its parts do, whatever the store answers.
-/
import TypedRecords.Manager

namespace TypedRecords

open Query (PageQuery Page)

/-! ### A store answering in turn -/

namespace RecordStore

variable {σ : Type}

/-- A store's state after requests sent one after the other. -/
def after (store : RecordStore σ) (requests : List Request) (state : σ) : σ :=
  requests.foldl (fun state r => (store.answer r state).2) state

theorem after_append (store : RecordStore σ) (first rest : List Request) (state : σ) :
    store.after (first ++ rest) state = store.after rest (store.after first state) :=
  List.foldl_append

/-- A store's answers to page queries sent one after the other. -/
def pages (store : RecordStore σ) : List PageQuery → σ → List (Except StoreError Page)
  | [], _ => []
  | q :: rest, state =>
    let answered := store.answer (.retrieve q) state
    answered.1 :: store.pages rest answered.2

theorem pages_append (store : RecordStore σ) (first rest : List PageQuery) : ∀ state : σ,
    store.pages (first ++ rest) state
      = store.pages first state ++ store.pages rest (store.after (first.map .retrieve) state) := by
  induction first with
  | nil => exact fun _ => rfl
  | cons q first ih =>
      intro state
      rw [List.cons_append, pages, pages, ih]
      rfl

end RecordStore

/-! ### The events of a run -/

namespace Manager

variable {σ α β : Type} {m : Manager σ}

/-- What a record reads as. -/
def reading (m : Manager σ) (type : TypeName) (record : Record) : Except MappingError Entity :=
  Entity.ofRecord m.catalog m.converters type record

/-- The requests among events. -/
def requestsOf (events : List Event) : List Request := events.filterMap Event.request?

@[simp] theorem requestsOf_sent (r : Request) (events : List Event) :
    requestsOf (.sent r :: events) = r :: requestsOf events := rfl

@[simp] theorem requestsOf_reported (errors : List Error) :
    requestsOf (errors.map .reported) = [] :=
  List.filterMap_eq_nil_iff.mpr fun _ h => by
    obtain ⟨e, -, rfl⟩ := List.mem_map.mp h
    rfl

@[simp] theorem requestsOf_append (first rest : List Event) :
    requestsOf (first ++ rest) = requestsOf first ++ requestsOf rest :=
  List.filterMap_append

/-- The faults among events. -/
def faultsOf (events : List Event) : List Error := events.filterMap Event.fault?

@[simp] theorem faultsOf_append (first rest : List Event) :
    faultsOf (first ++ rest) = faultsOf first ++ faultsOf rest :=
  List.filterMap_append

/-- A sequence goes on from the first part's value in the session that the first part left. -/
theorem run_bind {first : Run σ α} (rest : α → Run σ β) {s : Session σ} {a : α}
    (h : (first s).1 = a) : (first >>= rest) s = rest a (first s).2 := by
  rw [← h]
  rfl

/-- Run from a session, an operation does the events and gives the value. -/
structure Does (m : Manager σ) (run : Run σ α) (s : Session σ) (events : List Event) (value : α) :
    Prop where
  value : (run s).1 = value
  history : (run s).2.history = s.history ++ events
  store : (run s).2.store = m.store.after (requestsOf events) s.store
  faults : (run s).2.faults = (faultsOf events).foldl (FaultChannel.report .none) s.faults

namespace Does

variable {s : Session σ}

theorem pure (value : α) : Does m (Pure.pure value : Run σ α) s [] value :=
  ⟨rfl, (List.append_nil _).symm, rfl, rfl⟩

/-- A sequence does what its parts do. -/
theorem bind_at {first : Run σ α} {rest : α → Run σ β} {done doing : List Event} {a : α} {b : β}
    (hfirst : Does m first s done a) (hrest : Does m (rest a) (first s).2 doing b) :
    Does m (first >>= rest) s (done ++ doing) b := by
  have hrun := run_bind rest hfirst.value
  refine ⟨hrun ▸ hrest.value, ?_, ?_, ?_⟩
  · rw [hrun, hrest.history, hfirst.history, List.append_assoc]
  · rw [hrun, hrest.store, hfirst.store, requestsOf_append, RecordStore.after_append]
  · rw [hrun, hrest.faults, hfirst.faults, faultsOf_append, List.foldl_append]

/-- A sequence whose second part needs to know of the first only the value and the state that the
store is in. -/
theorem bind {first : Run σ α} {rest : α → Run σ β} {done doing : List Event} {a : α} {b : β}
    (hfirst : Does m first s done a)
    (hrest : ∀ s' : Session σ, s'.store = m.store.after (requestsOf done) s.store →
      Does m (rest a) s' doing b) :
    Does m (first >>= rest) s (done ++ doing) b :=
  hfirst.bind_at (hrest _ hfirst.store)

/-- A last step that only makes a value of another. -/
theorem map {run : Run σ α} {events : List Event} {a : α} (h : Does m run s events a)
    (f : α → β) : Does m (run >>= fun a => Pure.pure (f a)) s events (f a) := by
  have hseq : Does m (run >>= fun a => Pure.pure (f a)) s (events ++ []) (f a) :=
    h.bind fun _ _ => .pure (f a)
  rwa [List.append_nil] at hseq

theorem send (r : Request) : Does m (m.send r) s [.sent r] (m.store.answer r s.store).1 :=
  ⟨rfl, rfl, rfl, rfl⟩

theorem report (e : Error) : Does m (Manager.report e : Run σ Unit) s [.reported e] () :=
  ⟨rfl, rfl, rfl, rfl⟩

/-- Noting what was asked for is not an event. -/
theorem ask (types : List TypeName) : Does m (Manager.ask types : Run σ Unit) s [] () :=
  ⟨rfl, (List.append_nil _).symm, rfl, rfl⟩

theorem schema? (type : TypeName) :
    Does m (m.schema? type) s [] (m.catalog.schema? type) :=
  (ask [type]).bind fun _ _ => .pure _

theorem ofRecord (type : TypeName) (record : Record) :
    Does m (m.ofRecord type record) s [] (m.reading type record) :=
  (ask _).bind fun _ _ => .pure _

/-- The requests of a session after a run. -/
theorem requests {run : Run σ α} {events : List Event} {a : α} (h : Does m run s events a) :
    (run s).2.requests = s.requests ++ requestsOf events := by
  unfold Session.requests
  rw [h.history]
  exact requestsOf_append ..

end Does

end Manager

end TypedRecords
