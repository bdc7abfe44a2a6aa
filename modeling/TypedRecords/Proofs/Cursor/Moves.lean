/-
Turning pages.

A move asks for the page beside the one that the cursor's query names, when page numbers go that far,
and takes over whatever comes back: a batch without entities, or one that shows a failure, like any
other.  Otherwise it does nothing at all.  So after any moves the query is the first one but for the
page, and no request but the first can name page zero.  Nothing is known of the store, and the page
number that a batch shows is the store's own.
-/
import TypedRecords.Proofs.Cursor

namespace TypedRecords

open Query (PageQuery Page)

/-! ### The page beside another -/

namespace Query.PageQuery

/-- The query for another page. -/
def turnedTo (q : PageQuery) (page : UInt32) : PageQuery := { q with page }

/-- A query is itself but for the page. -/
theorem exists_map_turnedTo (query : Option PageQuery) :
    ∃ page, query = query.map (·.turnedTo page) := by
  cases query with
  | none => exact ⟨0, rfl⟩
  | some q => exact ⟨q.page, rfl⟩

theorem next?_eq {q : PageQuery} (h : q.page.toNat + 1 < 2 ^ 32) :
    q.next? = some (q.turnedTo (q.page + 1)) :=
  if_pos h

theorem previous?_eq {q : PageQuery} (h : 2 ≤ q.page) :
    q.previous? = some (q.turnedTo (q.page - 1)) :=
  if_pos h

theorem page_of_previous {q : PageQuery} (h : 2 ≤ q.page) :
    (q.page - 1).toNat = q.page.toNat - 1 :=
  UInt32.toNat_sub_of_le _ _ (UInt32.le_trans (by decide : (1 : UInt32) ≤ 2) h)

end Query.PageQuery

namespace Direction

variable {direction : Direction} {q : PageQuery}

/-- The number of the page that a move from a page leads to. -/
def target : Direction → Nat → Int
  | next, page => page + 1
  | previous, page => page - 1

/-- There is such a page: pages count from one, and a page number has 32 bits. -/
def Reaches (direction : Direction) (page : UInt32) : Prop :=
  1 ≤ direction.target page.toNat ∧ direction.target page.toNat < 2 ^ 32

/-- A move that reaches a page is to the query for that page. -/
theorem step?_of_reaches (h : direction.Reaches q.page) :
    ∃ page : UInt32, page.toNat = direction.target q.page.toNat ∧
      direction.step? q = some (q.turnedTo page) := by
  cases direction with
  | next =>
      have hroom : q.page.toNat + 1 < 2 ^ 32 := Int.ofNat_lt.mp h.2
      have hstep := PageQuery.next?_eq hroom
      exact ⟨q.page + 1, congrArg Int.ofNat (PageQuery.page_of_next? hstep), hstep⟩
  | previous =>
      have hlow : 1 ≤ (q.page.toNat : Int) - 1 := h.1
      have htwo : 2 ≤ q.page.toNat := by omega
      have hpos : 2 ≤ q.page := UInt32.le_iff_toNat_le.mpr htwo
      refine ⟨q.page - 1, ?_, PageQuery.previous?_eq hpos⟩
      show ((q.page - 1).toNat : Int) = q.page.toNat - 1
      rw [PageQuery.page_of_previous hpos]
      omega

/-- A move that reaches none is to no query. -/
theorem step?_of_not_reaches (h : ¬direction.Reaches q.page) : direction.step? q = none := by
  have hlt := q.page.toNat_lt
  cases direction with
  | next =>
      refine if_neg fun hroom => h ⟨?_, Int.ofNat_lt.mpr hroom⟩
      show 1 ≤ (q.page.toNat : Int) + 1
      omega
  | previous =>
      refine if_neg fun hpos => h ?_
      have hpos : 2 ≤ q.page.toNat := UInt32.le_iff_toNat_le.mp hpos
      show 1 ≤ (q.page.toNat : Int) - 1 ∧ (q.page.toNat : Int) - 1 < 2 ^ 32
      omega

end Direction

namespace Cursor

variable {σ : Type} {m : Manager σ} {c : Cursor} {s : Session σ} {direction : Direction}
  {q r : PageQuery}

/-! ### One move -/

/-- The batch of an answer to a page query with the entities made of its records.  Of a page that
failed only the number is known. -/
def batchFor (q : PageQuery) (entities : List Entity) : Except StoreError Page → Batch
  | .ok page => Manager.batchOf page entities
  | .error _ => { page := q.page, entities }

/-- A batch shows the answer to a page query: its entities stand for the records that map, one for
one, and the rest is the page's. -/
structure Shows (m : Manager σ) (type : TypeName) (q : PageQuery)
    (answer : Except StoreError Page) (batch : Batch) : Prop where
  entities : List.Forall₂ (m.StandsFor type) (m.mappedOf type answer) batch.entities
  batch_eq : batch = batchFor q batch.entities answer

theorem shows_fetch (m : Manager σ) (type : TypeName) (q : PageQuery) (s : Session σ) :
    Shows m type q (m.store.answer (.retrieve q) s.store).1 (m.fetch type q s).1 := by
  refine ⟨m.fetch_standsFor type q s, ?_⟩
  cases h : (m.store.answer (.retrieve q) s.store).1 with
  | error e =>
      rw [(Manager.does_fetch_error h type).value]
      rfl
  | ok page =>
      obtain ⟨visits, -, hdoes⟩ := Manager.does_fetch_ok h type
      rw [hdoes.value]
      rfl

/-- What a move makes of a cursor in a session: what it tells, the cursor and the session after it. -/
inductive Moved (m : Manager σ) (direction : Direction) (c : Cursor) (s : Session σ) :
    (Bool × Cursor) × Session σ → Prop
  /-- There is a page to turn to.  Its query is sent, and its follow-ups; the cursor is what the fetch
  brought. -/
  | turned {q : PageQuery} {page : UInt32} {batch : Batch} {s' : Session σ}
      (hquery : c.query = some q) (hpage : page.toNat = direction.target q.page.toNat)
      (hreaches : direction.Reaches q.page)
      (hfetch : m.fetch c.type (q.turnedTo page) s = (batch, s'))
      (hshows : Shows m c.type (q.turnedTo page)
        (m.store.answer (.retrieve (q.turnedTo page)) s.store).1 batch)
      (hrequests : s'.requests = s.requests ++ .retrieve (q.turnedTo page) :: m.requestsFor
        ((m.mappedOf c.type (m.store.answer (.retrieve (q.turnedTo page)) s.store).1).flatMap
          (m.due c.type))) :
      Moved m direction c s
        ((!batch.entities.isEmpty, ⟨c.type, some (q.turnedTo page), batch⟩), s')
  /-- There is none. -/
  | stayed (h : ∀ q, c.query = some q → ¬direction.Reaches q.page) :
      Moved m direction c s ((false, c), s)

theorem move_of_step (hquery : c.query = some q) (hstep : direction.step? q = some r) :
    c.move m direction s
      = ((!(m.fetch c.type r s).1.entities.isEmpty,
          ⟨c.type, some r, (m.fetch c.type r s).1⟩), (m.fetch c.type r s).2) := by
  unfold move
  rw [hquery, Option.bind_some, hstep]
  rfl

theorem move_of_no_step (h : c.query.bind direction.step? = none) :
    c.move m direction s = ((false, c), s) := by
  unfold move
  rw [h]
  rfl

/-- **A move fetches the page beside, or does nothing.** -/
theorem moved_move (m : Manager σ) (direction : Direction) (c : Cursor) (s : Session σ) :
    Moved m direction c s (c.move m direction s) := by
  cases hquery : c.query with
  | none =>
      rw [move_of_no_step (by rw [hquery]; rfl)]
      exact .stayed (by simp [hquery])
  | some q =>
      by_cases hreaches : direction.Reaches q.page
      · obtain ⟨page, hpage, hstep⟩ := Direction.step?_of_reaches hreaches
        rw [move_of_step hquery hstep]
        exact .turned hquery hpage hreaches rfl (shows_fetch ..) (m.requests_fetch ..)
      · rw [move_of_no_step (by rw [hquery]; exact Direction.step?_of_not_reaches hreaches)]
        refine .stayed fun q' hq' => ?_
        cases hquery.symm.trans hq'
        exact hreaches

/-- A move keeps the query but for the page. -/
theorem Moved.query_eq {result : (Bool × Cursor) × Session σ} (h : Moved m direction c s result) :
    ∃ page, result.1.2.query = c.query.map (·.turnedTo page) := by
  cases h with
  | @turned q page _ _ hquery _ _ _ _ _ => exact ⟨page, by rw [hquery]; rfl⟩
  | stayed _ => exact PageQuery.exists_map_turnedTo c.query

/-- A move that reaches a page is to the query for it. -/
theorem query_move (hquery : c.query = some q) (hreaches : direction.Reaches q.page) :
    ∃ page : UInt32, page.toNat = direction.target q.page.toNat ∧
      (c.move m direction s).1.2.query = some (q.turnedTo page) := by
  obtain ⟨page, hpage, hstep⟩ := Direction.step?_of_reaches hreaches
  exact ⟨page, hpage, by rw [move_of_step hquery hstep]⟩

/-! ### Requests for pages -/

/-- The request is for a page that there is. -/
def AsksForPage (r : Request) : Prop := ∃ q : PageQuery, r = .retrieve q ∧ q.page ≠ 0

/-- A follow-up asks for a first page. -/
theorem asksForPage_followUp {followUps : List FollowUp} {r : Request}
    (h : r ∈ m.requestsFor followUps) : AsksForPage r := by
  obtain ⟨q, hq, rfl⟩ := List.mem_map.mp h
  obtain ⟨f, -, rfl⟩ := List.mem_map.mp hq
  exact ⟨_, rfl, show (1 : UInt32) ≠ 0 by decide⟩

theorem Moved.requests_eq {result : (Bool × Cursor) × Session σ}
    (h : Moved m direction c s result) :
    ∃ sent, result.2.requests = s.requests ++ sent ∧ ∀ r ∈ sent, AsksForPage r := by
  cases h with
  | @turned q page _ _ _ hpage hreaches _ _ hrequests =>
      refine ⟨_, hrequests, ?_⟩
      have hpos : page ≠ 0 := by
        rintro rfl
        have hlow := hreaches.1
        rw [← hpage] at hlow
        exact absurd hlow (by decide)
      intro r hr
      rcases List.mem_cons.mp hr with rfl | hr
      · exact ⟨_, rfl, hpos⟩
      · exact asksForPage_followUp hr
  | stayed _ => exact ⟨[], (List.append_nil _).symm, by simp⟩

/-! ### Any moves -/

/-- Moves one after the other. -/
def walk (m : Manager σ) : List Direction → Cursor → Run σ Cursor
  | [], c => return c
  | direction :: rest, c => do
    let (_, c) ← c.move m direction
    walk m rest c

theorem walk_cons (m : Manager σ) (direction : Direction) (rest : List Direction) (c : Cursor)
    (s : Session σ) :
    walk m (direction :: rest) c s
      = walk m rest (c.move m direction s).1.2 (c.move m direction s).2 := rfl

/-- Moves keep the query but for the page. -/
theorem query_walk (m : Manager σ) (path : List Direction) : ∀ (c : Cursor) (s : Session σ),
    ∃ page, (walk m path c s).1.query = c.query.map (·.turnedTo page) := by
  induction path with
  | nil => exact fun c s => PageQuery.exists_map_turnedTo c.query
  | cons direction rest ih =>
      intro c s
      obtain ⟨first, hfirst⟩ := (moved_move m direction c s).query_eq
      obtain ⟨page, hpage⟩ := ih (c.move m direction s).1.2 (c.move m direction s).2
      refine ⟨page, ?_⟩
      rw [walk_cons, hpage, hfirst, Option.map_map]
      rfl

theorem requests_walk (m : Manager σ) (path : List Direction) : ∀ (c : Cursor) (s : Session σ),
    ∃ sent, (walk m path c s).2.requests = s.requests ++ sent ∧ ∀ r ∈ sent, AsksForPage r := by
  induction path with
  | nil => exact fun c s => ⟨[], (List.append_nil _).symm, by simp⟩
  | cons direction rest ih =>
      intro c s
      obtain ⟨first, hfirst, hasks⟩ := (moved_move m direction c s).requests_eq
      obtain ⟨sent, hsent, hlater⟩ := ih (c.move m direction s).1.2 (c.move m direction s).2
      refine ⟨first ++ sent, ?_, ?_⟩
      · rw [walk_cons, hsent, hfirst, List.append_assoc]
      · intro r hr
        rcases List.mem_append.mp hr with hr | hr
        · exact hasks r hr
        · exact hlater r hr

/-- Turning a page and turning back leads to the same query. -/
theorem query_there_and_back (hquery : c.query = some q) (hpage : q.page ≠ 0)
    (hreaches : Direction.next.Reaches q.page) :
    (walk m [.next, .previous] c s).1.query = some q := by
  obtain ⟨there, hthere, hturned⟩ := query_move (m := m) (s := s) hquery hreaches
  have hpos : 0 < q.page.toNat := Nat.pos_of_ne_zero fun h => hpage (UInt32.toNat_inj.mp h)
  have hthere : (there.toNat : Int) = q.page.toNat + 1 := hthere
  have hreturns : Direction.previous.Reaches (q.turnedTo there).page := by
    have hlt := there.toNat_lt
    show 1 ≤ (there.toNat : Int) - 1 ∧ (there.toNat : Int) - 1 < 2 ^ 32
    omega
  obtain ⟨back, hback, hquery'⟩ :=
    query_move (m := m) (s := (c.move m .next s).2) hturned hreturns
  have hback : (back.toNat : Int) = there.toNat - 1 := hback
  have hsame : back = q.page := UInt32.toNat_inj.mp (by omega)
  show ((c.move m .next s).1.2.move m .previous (c.move m .next s).2).1.2.query = some q
  rw [hquery', hsame]
  rfl

/--
**A cursor turns pages of one query.**

After any moves, whatever the store answered, the query is the first one but for the page.  The next
move fetches the page beside and shows what comes back, or, when there is no such page or no query,
changes nothing.  None of the requests of the moves is for page zero, and turning to the next page and
back leads to the same query, unless that is for page zero itself.
-/
theorem walk_turns_pages (m : Manager σ) (c : Cursor) (s : Session σ) (path : List Direction) :
    let (now, there) := walk m path c s
    (∃ page, now.query = c.query.map (·.turnedTo page)) ∧
    (∀ direction, Moved m direction now there (now.move m direction there)) ∧
    (∃ sent, there.requests = s.requests ++ sent ∧ ∀ r ∈ sent, AsksForPage r) ∧
    ∀ q, now.query = some q → q.page ≠ 0 → Direction.next.Reaches q.page →
      (walk m [.next, .previous] now there).1.query = some q :=
  ⟨query_walk m path c s, fun direction => moved_move m direction _ _, requests_walk m path c s,
    fun _ hquery hpage hreaches => query_there_and_back hquery hpage hreaches⟩

end Cursor

end TypedRecords
