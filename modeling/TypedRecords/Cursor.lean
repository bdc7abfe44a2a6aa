/-
Cursors: walking through the pages of a query.

A cursor holds the current page and the query that brought it.  A move re-sends that query with the
next or the previous page number and takes over whatever comes back; it tells whether the new page
has entities.  Past the first or the last page number, and for a cursor without a query, there is no
move and no request.  Collecting all pages moves on until a page is empty; page numbers run out, so
it ends whatever the store answers.
-/
import TypedRecords.Manager.Fetch

namespace TypedRecords

open Query (PageQuery Search)

/-- A page of a type's entities with the query behind it. -/
structure Cursor where
  type : TypeName
  query : Option PageQuery
  batch : Batch
deriving Inhabited

/-- The two directions of a move. -/
inductive Direction where
  | next
  | previous
deriving DecidableEq, Inhabited

/-- The query one page further on. -/
def Direction.step? : Direction → PageQuery → Option PageQuery
  | next, q => q.next?
  | previous, q => q.previous?

namespace Cursor

/-- A cursor whose query could not be made. -/
def failed (type : TypeName) : Cursor := ⟨type, none, { page := 1 }⟩

/-- Moves to a neighbouring page; tells whether it has entities. -/
def move {σ : Type} (m : Manager σ) (c : Cursor) (direction : Direction) :
    Run σ (Bool × Cursor) := do
  match c.query.bind direction.step? with
  | none => return (false, c)
  | some q =>
    let batch ← m.fetch c.type q
    return (!batch.entities.isEmpty, { c with query := some q, batch })

/-- The entities of the pages after a query's, up to the first page without any. -/
def pagesAfter {σ : Type} (m : Manager σ) (type : TypeName) (q : PageQuery) :
    Run σ (List Entity) := do
  match step : q.next? with
  | none => return []
  | some r =>
    have : 2 ^ 32 - r.page.toNat < 2 ^ 32 - q.page.toNat := by
      have hr := Query.PageQuery.page_of_next? step
      have hlt := r.page.toNat_lt
      omega
    let batch ← m.fetch type r
    if batch.entities.isEmpty then return []
    return batch.entities ++ (← pagesAfter m type r)
termination_by 2 ^ 32 - q.page.toNat

/-- The entities of the current page and of the pages after it, up to the first page without any. -/
def allPages {σ : Type} (m : Manager σ) (c : Cursor) : Run σ (List Entity) := do
  match c.query with
  | none => return c.batch.entities
  | some q => return c.batch.entities ++ (← pagesAfter m c.type q)

end Cursor

namespace Manager

variable {σ : Type}

/-- A cursor at the page that a query asks for. -/
def retrieve (m : Manager σ) (type : TypeName) (q : PageQuery) : Run σ Cursor := do
  return ⟨type, some q, ← m.fetch type q⟩

/-- A cursor at the first page that a search among a type's entities asks for. -/
def find (m : Manager σ) (type : TypeName) (search : Search) : Run σ Cursor := do
  match ← m.typedQuery type search with
  | some q => m.retrieve type q
  | none => return .failed type

/-- A cursor at the first page that a search among an entity's records asks for. -/
def findUntyped (m : Manager σ) (entity : String) (search : Search) : Run σ Cursor := do
  match ← m.untypedQuery entity search with
  | some q => m.retrieve dynamicType q
  | none => return .failed dynamicType

end Manager

end TypedRecords
