/-
Page queries: what a store is asked for, and the page it answers with.

A page query names an entity and tells which of its records to return: the columns, a filter, the
order, the joined entities, and one page of a given size.  Pages count from one.  An answer holds
the page's records and whether more follow.
-/
import TypedRecords.Query.Filter
import TypedRecords.Record

namespace TypedRecords.Query

/-- One attribute to sort by. -/
structure SortKey where
  attr : String
  descending : Bool := false
deriving DecidableEq, Inhabited

/-- Whether a joined entity has to be there. -/
inductive JoinKind where
  /-- Only records with a matching joined record. -/
  | inner
  /-- Records with or without one. -/
  | outer
deriving DecidableEq, Inhabited

/-- The word for a kind of join. -/
def JoinKind.token : JoinKind → String
  | .inner => "inner"
  | .outer => "outer"

/-- A joined entity: `child`'s attribute `childField` equals the root entity's `parentField`. -/
structure Join where
  child : String
  childField : String
  parentField : String
  kind : JoinKind := .inner
deriving DecidableEq, Inhabited

/-- The attributes to return. -/
inductive Columns where
  | all
  | named (attributes : List String)
deriving DecidableEq, Inhabited

/-- The size of a page when none is asked for. -/
def defaultPageSize : UInt32 := 20

/-- A request for one page of an entity's records. -/
structure PageQuery where
  entity : String
  columns : Columns := .all
  filter : Option Filter := none
  order : List SortKey := []
  joins : List Join := []
  page : UInt32 := 1
  pageSize : UInt32 := defaultPageSize
  distinct : Bool := false
  /-- Read without locks. -/
  noLock : Bool := true
  /-- Ask for the number of matching records. -/
  countTotal : Bool := false
  /-- Use the entity's name as it stands for its record set. -/
  verbatim : Bool := false
deriving DecidableEq, Inhabited

namespace PageQuery

/-- The query at another page, the first one when asked for page zero, and page size. -/
def atPage (q : PageQuery) (page pageSize : UInt32) : PageQuery :=
  { q with page := if page = 0 then 1 else page, pageSize }

/-- The query with a filter in place of any before. -/
def filteredBy (q : PageQuery) (f : Filter) : PageQuery := { q with filter := some f }

/-- The query with one more attribute to sort by, after the others. -/
def sortedBy (q : PageQuery) (attr : String) (descending : Bool) : PageQuery :=
  { q with order := q.order ++ [⟨attr, descending⟩] }

/-- The query with one more joined entity. -/
def joining (q : PageQuery) (child childField parentField : String) : PageQuery :=
  { q with joins := q.joins ++ [{ child, childField, parentField }] }

/-- The query for some columns. -/
def selecting (q : PageQuery) (attributes : List String) : PageQuery :=
  { q with columns := .named attributes }

/-- The query for the page after, while page numbers last. -/
def next? (q : PageQuery) : Option PageQuery :=
  if q.page.toNat + 1 < 2 ^ 32 then some { q with page := q.page + 1 } else none

/-- The query for the page before, down to the first. -/
def previous? (q : PageQuery) : Option PageQuery :=
  if 2 ≤ q.page then some { q with page := q.page - 1 } else none

theorem page_of_next? {q r : PageQuery} (h : q.next? = some r) :
    r.page.toNat = q.page.toNat + 1 := by
  unfold next? at h
  split at h
  · rename_i hlt
    cases h
    rw [UInt32.toNat_add]
    exact Nat.mod_eq_of_lt hlt
  · cases h

end PageQuery

/-- One page of records as a store answers with it. -/
structure Page where
  records : List Record := []
  more : Bool := false
  /-- The number of matching records, when the store tells it. -/
  total : Option UInt64 := none
  /-- That number hit the store's counting limit. -/
  limitExceeded : Bool := false
  page : UInt32 := 0
deriving DecidableEq, Inhabited

end TypedRecords.Query
