/-
Scripted stores: stores that answer from queues.

Each kind of request has its queue of answers, used up from the front.  When a queue is empty, a
page request gets an empty page with its own number, a creation fails for want of an answer, and
any other change succeeds.
-/
import TypedRecords.Store

namespace TypedRecords

open Query (Page)

/-- The answers still to give. -/
structure Script where
  retrieve : List (Except StoreError Page) := []
  create : List (Except StoreError Identity) := []
  /-- The answers to all other changes. -/
  flags : List (Except StoreError Bool) := []

namespace Script

/-- Takes the next answer to a change other than a creation. -/
def nextFlag (script : Script) : Except StoreError Bool × Script :=
  match script.flags with
  | [] => (.ok true, script)
  | answer :: flags => (answer, { script with flags })

/-- Takes the next answer to a request. -/
def next (script : Script) : (r : Request) → Except StoreError r.Answer × Script
  | .retrieve q =>
    match script.retrieve with
    | [] => (.ok { page := q.page }, script)
    | answer :: retrieve => (answer, { script with retrieve })
  | .create .. =>
    match script.create with
    | [] => (.error (.connection "no answer"), script)
    | answer :: create => (answer, { script with create })
  | .update .. => script.nextFlag
  | .setState .. => script.nextFlag
  | .associate .. => script.nextFlag

/-- The store that answers from a script. -/
def store : RecordStore Script := ⟨fun r script => script.next r⟩

end Script

end TypedRecords
