/-
What collecting all pages brings, and when it ends.

The pages after a cursor's are numbered by how many pages ahead they are.  Collecting fetches them
one after the other, so the page that is `i + 1` pages ahead is fetched in the session that the
fetches before it left, and the whole of it is told by the number of pages with entities met before
the first one without any.  The induction is on the page numbers that are left; nothing is known of
the store.

What is collected are the records that map.  A page on which none does is a page without entities,
and collecting ends there, whatever records the store has on the pages behind it.
-/
import TypedRecords.Cursor
import TypedRecords.Proofs.Manager.Fetch

namespace TypedRecords

open Query (PageQuery Page)

/-! ### Pages ahead -/

namespace Query.PageQuery

/-- The query some pages further on. -/
def ahead (q : PageQuery) (pages : Nat) : PageQuery :=
  { q with page := UInt32.ofNat (q.page.toNat + pages) }

/-- How many pages there are after a query's. -/
def room (q : PageQuery) : Nat := 2 ^ 32 - 1 - q.page.toNat

theorem next?_of_room {q : PageQuery} (h : 0 < q.room) : q.next? = some (q.ahead 1) := by
  unfold room at h
  have hlt : q.page.toNat + 1 < 2 ^ 32 := by omega
  have hpage : q.page + 1 = UInt32.ofNat (q.page.toNat + 1) := by
    apply UInt32.toNat_inj.mp
    rw [UInt32.toNat_add, UInt32.toNat_ofNat']
    rfl
  unfold next? ahead
  rw [if_pos hlt, hpage]

theorem next?_of_no_room {q : PageQuery} (h : q.room = 0) : q.next? = none := by
  unfold room at h
  exact if_neg (by omega)

theorem ahead_ahead (q : PageQuery) (i j : Nat) : (q.ahead i).ahead j = q.ahead (i + j) := by
  unfold ahead
  congr 1
  apply UInt32.toNat_inj.mp
  simp only [UInt32.toNat_ofNat']
  omega

theorem room_ahead {q : PageQuery} {i : Nat} (h : i ≤ q.room) :
    (q.ahead i).room = q.room - i := by
  have hlt := q.page.toNat_lt
  unfold room at h ⊢
  unfold ahead
  rw [UInt32.toNat_ofNat']
  omega

/-- What holds of a query without a page after it, and of one whenever it holds of the query for the
page after, holds of every query: page numbers run out. -/
theorem next_induction {P : PageQuery → Prop} (last : ∀ q, q.next? = none → P q)
    (next : ∀ q r, q.next? = some r → P r → P q) : ∀ q, P q := by
  have hroom : ∀ n q, q.room = n → P q := by
    intro n
    induction n with
    | zero =>
        intro q h
        exact last q (next?_of_no_room h)
    | succ n ih =>
        intro q h
        refine next q (q.ahead 1) (next?_of_room (by omega)) (ih _ ?_)
        rw [room_ahead (by omega), h]
        rfl
  exact fun q => hroom _ q rfl

end Query.PageQuery

namespace Cursor

variable {σ : Type}

/-- The session when the pages after a query's have been fetched up to some pages ahead. -/
def sessionAhead (m : Manager σ) (type : TypeName) (q : PageQuery) (s : Session σ) :
    Nat → Session σ
  | 0 => s
  | i + 1 => (m.fetch type (q.ahead (i + 1)) (sessionAhead m type q s i)).2

/-- The batch of the page that is `i + 1` pages ahead. -/
def batchAhead (m : Manager σ) (type : TypeName) (q : PageQuery) (s : Session σ) (i : Nat) :
    Batch :=
  (m.fetch type (q.ahead (i + 1)) (sessionAhead m type q s i)).1

/-- What is ahead of the next page is one page further ahead of this one. -/
theorem sessionAhead_next (m : Manager σ) (type : TypeName) (q : PageQuery) (s : Session σ)
    (i : Nat) :
    sessionAhead m type (q.ahead 1) (m.fetch type (q.ahead 1) s).2 i
      = sessionAhead m type q s (i + 1) := by
  induction i with
  | zero => rfl
  | succ i ih =>
      rw [sessionAhead, sessionAhead, ih, PageQuery.ahead_ahead, Nat.add_comm 1]

theorem batchAhead_next (m : Manager σ) (type : TypeName) (q : PageQuery) (s : Session σ)
    (i : Nat) :
    batchAhead m type (q.ahead 1) (m.fetch type (q.ahead 1) s).2 i
      = batchAhead m type q s (i + 1) := by
  unfold batchAhead
  rw [sessionAhead_next, PageQuery.ahead_ahead, Nat.add_comm 1]

/-! ### Collecting -/

theorem pagesAfter_last {m : Manager σ} {type : TypeName} {q : PageQuery} (h : q.next? = none) :
    pagesAfter m type q = pure [] := by
  rw [pagesAfter]
  split
  · rfl
  · rename_i hsome
    cases h.symm.trans hsome

theorem pagesAfter_next {m : Manager σ} {type : TypeName} {q r : PageQuery}
    (h : q.next? = some r) :
    pagesAfter m type q = do
      let batch ← m.fetch type r
      if batch.entities.isEmpty then return []
      return batch.entities ++ (← pagesAfter m type r) := by
  rw [pagesAfter]
  split
  · rename_i hnone
    cases hnone.symm.trans h
  · rename_i hsome
    cases hsome.symm.trans h
    rfl

/-- Collecting went over `n` pages with entities. -/
structure Collects (m : Manager σ) (type : TypeName) (q : PageQuery) (s : Session σ) (n : Nat)
    (collected : List Entity × Session σ) : Prop where
  within : n ≤ q.room
  filled : ∀ i < n, (batchAhead m type q s i).entities ≠ []
  /-- The page after them, if there is one, has none. -/
  stops : n < q.room → (batchAhead m type q s n).entities = []
  entities : collected.1 = (List.range n).flatMap fun i => (batchAhead m type q s i).entities
  /-- That page is the last one to be fetched. -/
  session : collected.2 = sessionAhead m type q s (min (n + 1) q.room)

theorem collects_last {m : Manager σ} {type : TypeName} {q : PageQuery} (h : q.room = 0)
    (s : Session σ) : Collects m type q s 0 (pagesAfter m type q s) := by
  rw [pagesAfter_last (PageQuery.next?_of_no_room h)]
  refine ⟨by omega, by omega, by omega, rfl, ?_⟩
  rw [h, Nat.min_zero]
  rfl

theorem collects_empty {m : Manager σ} {type : TypeName} {q : PageQuery} {s : Session σ}
    (h : 0 < q.room) (hempty : (m.fetch type (q.ahead 1) s).1.entities = []) :
    Collects m type q s 0 (pagesAfter m type q s) := by
  have hcollected : pagesAfter m type q s = ([], (m.fetch type (q.ahead 1) s).2) := by
    rw [pagesAfter_next (PageQuery.next?_of_room h)]
    show (if (m.fetch type (q.ahead 1) s).1.entities.isEmpty then pure []
      else _ : Run σ (List Entity)) (m.fetch type (q.ahead 1) s).2 = _
    rw [hempty]
    rfl
  rw [hcollected]
  refine ⟨by omega, by omega, fun _ => hempty, rfl, ?_⟩
  rw [Nat.min_eq_left (by omega)]
  rfl

theorem Collects.next {m : Manager σ} {type : TypeName} {q : PageQuery} {s : Session σ} {n : Nat}
    (h : 0 < q.room) (hfilled : (m.fetch type (q.ahead 1) s).1.entities ≠ [])
    (hrest : Collects m type (q.ahead 1) (m.fetch type (q.ahead 1) s).2 n
      (pagesAfter m type (q.ahead 1) (m.fetch type (q.ahead 1) s).2)) :
    Collects m type q s (n + 1) (pagesAfter m type q s) := by
  have hroom : (q.ahead 1).room = q.room - 1 := PageQuery.room_ahead h
  have hcollected : pagesAfter m type q s
      = ((m.fetch type (q.ahead 1) s).1.entities
          ++ (pagesAfter m type (q.ahead 1) (m.fetch type (q.ahead 1) s).2).1,
        (pagesAfter m type (q.ahead 1) (m.fetch type (q.ahead 1) s).2).2) := by
    rw [pagesAfter_next (PageQuery.next?_of_room h)]
    show (if (m.fetch type (q.ahead 1) s).1.entities.isEmpty then pure []
      else _ : Run σ (List Entity)) (m.fetch type (q.ahead 1) s).2 = _
    rw [if_neg (by simpa using hfilled)]
    rfl
  refine ⟨?_, ?_, ?_, ?_, ?_⟩
  · have := hrest.within
    omega
  · rintro (_ | i) hi
    · exact hfilled
    · rw [← batchAhead_next]
      exact hrest.filled i (by omega)
  · intro hn
    rw [← batchAhead_next]
    exact hrest.stops (by omega)
  · rw [hcollected, List.range_succ_eq_map, List.flatMap_cons, List.flatMap_map, hrest.entities]
    simp only [batchAhead_next]
    rfl
  · have hmin : min (n + 1 + 1) q.room = min (n + 1) (q.ahead 1).room + 1 := by omega
    rw [hcollected, hmin, ← sessionAhead_next]
    exact hrest.session

/-- Collecting ends, at the first page without entities or at the last page there is. -/
theorem exists_collects (m : Manager σ) (type : TypeName) : ∀ (room : Nat) (q : PageQuery)
    (s : Session σ), q.room = room → ∃ n, Collects m type q s n (pagesAfter m type q s) := by
  intro room
  induction room with
  | zero => exact fun q s hroom => ⟨0, collects_last hroom s⟩
  | succ room ih =>
      intro q s hroom
      have hpos : 0 < q.room := by omega
      by_cases hempty : (m.fetch type (q.ahead 1) s).1.entities = []
      · exact ⟨0, collects_empty hpos hempty⟩
      · have hnext : (q.ahead 1).room = room := by
          rw [PageQuery.room_ahead hpos]
          omega
        obtain ⟨n, hn⟩ := ih (q.ahead 1) (m.fetch type (q.ahead 1) s).2 hnext
        exact ⟨n + 1, hn.next hpos hempty⟩

/-! ### All pages -/

/-- The answer to the query for the page that is `i + 1` pages ahead. -/
def answerAhead (m : Manager σ) (type : TypeName) (q : PageQuery) (s : Session σ) (i : Nat) :
    Except StoreError Page :=
  (m.store.answer (.retrieve (q.ahead (i + 1))) (sessionAhead m type q s i).store).1

/-- The requests of the fetch of that page: its query and the follow-ups of its records. -/
def requestsAhead (m : Manager σ) (type : TypeName) (q : PageQuery) (s : Session σ) (i : Nat) :
    List Request :=
  .retrieve (q.ahead (i + 1)) ::
    m.requestsFor ((m.mappedOf type (answerAhead m type q s i)).flatMap (m.due type))

theorem requests_sessionAhead (m : Manager σ) (type : TypeName) (q : PageQuery) (s : Session σ)
    (pages : Nat) :
    (sessionAhead m type q s pages).requests
      = s.requests ++ (List.range pages).flatMap (requestsAhead m type q s) := by
  induction pages with
  | zero => exact (List.append_nil _).symm
  | succ i ih =>
      rw [sessionAhead, Manager.requests_fetch, ih, List.range_succ, List.flatMap_append,
        List.flatMap_singleton, List.append_assoc]
      rfl

/-- Collecting all pages brings the current page and the pages after it. -/
theorem allPages_of_query {c : Cursor} {q : PageQuery} (h : c.query = some q) (m : Manager σ)
    (s : Session σ) :
    c.allPages m s
      = (c.batch.entities ++ (pagesAfter m c.type q s).1, (pagesAfter m c.type q s).2) := by
  unfold allPages
  rw [h]
  rfl

/-- **Collecting all pages ends, and fetches no more than it needs.**  The result is the current
batch and the batches of the pages ahead, up to the first without entities or through the last page
there is.  The pages that are requested are those up to that one, in order and each once, by the
cursor's query with another page number; besides them only follow-ups are sent.  A cursor without a
query sends nothing. -/
theorem allPages_collects (m : Manager σ) (c : Cursor) (s : Session σ) :
    match c.query with
    | none => c.allPages m s = (c.batch.entities, s)
    | some q => ∃ n later, Collects m c.type q s n (later, (c.allPages m s).2) ∧
        (c.allPages m s).1 = c.batch.entities ++ later ∧
        (c.allPages m s).2.requests = s.requests ++
          (List.range (min (n + 1) q.room)).flatMap (requestsAhead m c.type q s) := by
  cases h : c.query with
  | none =>
      unfold allPages
      rw [h]
      rfl
  | some q =>
      obtain ⟨n, hn⟩ := exists_collects m c.type q.room q s rfl
      have hall := allPages_of_query h m s
      rw [hall]
      refine ⟨n, _, hn, rfl, ?_⟩
      rw [hn.session, requests_sessionAhead]

/-! ### The records of all pages -/

/-- The records that map on the page that is `i + 1` pages ahead. -/
def mappedAhead (m : Manager σ) (type : TypeName) (q : PageQuery) (s : Session σ) (i : Nat) :
    List Record :=
  m.mappedOf type (answerAhead m type q s i)

theorem batchAhead_standsFor (m : Manager σ) (type : TypeName) (q : PageQuery) (s : Session σ)
    (i : Nat) :
    List.Forall₂ (m.StandsFor type) (mappedAhead m type q s i)
      (batchAhead m type q s i).entities :=
  m.fetch_standsFor type (q.ahead (i + 1)) (sessionAhead m type q s i)

/-- A page has entities when some of its records map. -/
theorem mappedAhead_eq_nil_iff (m : Manager σ) (type : TypeName) (q : PageQuery) (s : Session σ)
    (i : Nat) :
    mappedAhead m type q s i = [] ↔ (batchAhead m type q s i).entities = [] := by
  have hlength := (batchAhead_standsFor m type q s i).length_eq
  rw [← List.length_eq_zero_iff, ← List.length_eq_zero_iff, hlength]

/-- **All pages are the records that map, up to the first page without any.**  From the page that a
cursor was obtained at, every record that maps has its entity, in order and once each, through the
last page before the first one ahead on which no record maps. -/
theorem allPages_mapped (m : Manager σ) (type : TypeName) (q : PageQuery) (s₀ s : Session σ) :
    ∃ n ≤ q.room,
      (∀ i < n, mappedAhead m type q s i ≠ []) ∧
      (n < q.room → mappedAhead m type q s n = []) ∧
      List.Forall₂ (m.StandsFor type)
        (m.mappedOf type (m.store.answer (.retrieve q) s₀.store).1
          ++ (List.range n).flatMap (mappedAhead m type q s))
        ((⟨type, some q, (m.fetch type q s₀).1⟩ : Cursor).allPages m s).1 := by
  obtain ⟨n, hn⟩ := exists_collects m type q.room q s rfl
  refine ⟨n, hn.within, ?_, ?_, ?_⟩
  · intro i hi hnone
    exact hn.filled i hi ((mappedAhead_eq_nil_iff m type q s i).mp hnone)
  · intro hlt
    exact (mappedAhead_eq_nil_iff m type q s n).mpr (hn.stops hlt)
  · rw [allPages_of_query rfl, hn.entities]
    refine List.rel_append (m.fetch_standsFor type q s₀) ?_
    refine List.rel_flatMap (R := Eq) (List.forall₂_same.mpr fun _ _ => rfl) ?_
    rintro i _ rfl
    exact batchAhead_standsFor m type q s i

/-! A store of notes whose second page holds no note that maps. -/

/-- A catalog of notes, which have a rank. -/
def notes : Catalog where
  describe
    | "Note" =>
        { names := ["note"], declarations := [.scalar ⟨"rank", .plain .int32⟩ "rank" "rank"] }
    | _ => {}

/-- The record of a note by its number. -/
def note (n : Nat) (rank : Value) : Record :=
  ({ entity := "note", id := ⟨n % 2 ^ 128, Nat.mod_lt n (Nat.two_pow_pos 128)⟩ } : Record).set
    "rank" rank

/-- The store of three notes, one a page.  The second note's rank is no number. -/
def noteStore : RecordStore Unit where
  answer
    | .retrieve q, state =>
        let records := match q.page.toNat with
          | 1 => [note 1 (.int32 1)]
          | 2 => [note 2 (.string "high")]
          | 3 => [note 3 (.int32 3)]
          | _ => []
        (.ok { records, page := q.page }, state)
    | _, state => (.error (.connection "read only"), state)

def noteKeeper : Manager Unit := { catalog := notes, store := noteStore }

/-- The third note maps and stands before the first page without records, but a cursor at the first
page does not come to it: no note on the second page maps. -/
theorem allPages_without_third :
    let first : PageQuery := { entity := "note" }
    let third := note 3 (.int32 3)
    let c : Cursor := ⟨"Note", some first, (noteKeeper.fetch "Note" first (.start () 1)).1⟩
    noteKeeper.maps "Note" third = true ∧
      (∀ q state, ∃ page, (noteStore.answer (.retrieve q) state).1 = .ok page ∧
        (q.page.toNat ∈ [1, 2, 3] → page.records ≠ []) ∧
        (q.page.toNat = 3 → third ∈ page.records)) ∧
      ∀ e ∈ (c.allPages noteKeeper (.start () 1)).1, e.header.record ≠ some third := by
  intro first third c
  refine ⟨rfl, ?_, ?_⟩
  · intro q state
    refine ⟨_, rfl, ?_, ?_⟩
    · intro hpage
      simp only [List.mem_cons, List.not_mem_nil, or_false] at hpage
      rcases hpage with h | h | h <;> simp [h]
    · intro hpage
      simp [hpage, third]
  · have hroom : 0 < first.room := by decide
    have hempty : (noteKeeper.fetch "Note" (first.ahead 1) (.start () 1)).1.entities = [] := rfl
    have hlater := (collects_empty hroom hempty).entities
    have hrecords : c.batch.entities.map (·.header.record)
        = [some (note 1 (.int32 1))] := rfl
    intro e he
    rw [allPages_of_query rfl, hlater] at he
    have hmem : e.header.record ∈ c.batch.entities.map (·.header.record) :=
      List.mem_map_of_mem (by simpa using he)
    rw [hrecords, List.mem_singleton] at hmem
    rw [hmem]
    decide

end Cursor

end TypedRecords
