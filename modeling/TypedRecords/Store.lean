/-
Record stores: what answers requests.

A request asks for a page of records or for one change.  A store answers each request from its own
state, which the answer may change; it may fail.  Nothing else is known of a store, so what is shown
of managers holds whatever the store does.
-/
import TypedRecords.Error
import TypedRecords.Query.PageQuery

namespace TypedRecords

open Query (PageQuery Page)

/-- A request to a record store.  Changes tell whether the entity's name stands as it is for its
record set. -/
inductive Request where
  | retrieve (q : PageQuery)
  | create (record : Record) (verbatim : Bool)
  | update (record : Record) (verbatim : Bool)
  | setState (target : Reference) (state status : Int32) (verbatim : Bool)
  | associate (root child : Reference) (relationship : String) (verbatim : Bool)
deriving DecidableEq

namespace Request

/-- What a request is answered with: a page, the identity of a new record, or whether anything was
changed. -/
@[reducible] def Answer : Request → Type
  | retrieve _ => Page
  | create .. => Identity
  | update .. => Bool
  | setState .. => Bool
  | associate .. => Bool

/-- The request asks for records and changes none. -/
def isRead : Request → Bool
  | retrieve _ => true
  | _ => false

end Request

/-- A store whose state is of type `σ`. -/
structure RecordStore (σ : Type) where
  answer : (r : Request) → σ → Except StoreError r.Answer × σ

end TypedRecords
