/-
A record fetched without a type.

A lookup's record is put into a dynamic entity as it is; a page of an entity's records is read, as
pages are, with no type mapped.  Reading is the same for every catalog and converter, since dynamic
entities have no schema: it never fails, resolves no links, and gives the empty entity for a blank
record.  Every other record looks the same either way as to its identity, its name and its
attributes.
-/
import TypedRecords.Cursor
import TypedRecords.Proofs.Manager.Fetch

namespace TypedRecords

open Query (PageQuery Page Search)

namespace Entity

/-- A record as it is read where no type is mapped. -/
def untyped (record : Record) : Entity :=
  if record.isBlank then {}
  else { header := Mapping.header {} defaultStateField defaultStatusField record }

/-- The same record looks the same: identity, name and record are equal. -/
structure SameRecord (a b : Entity) : Prop where
  id : a.header.id = b.header.id
  entity : a.header.entity = b.header.entity
  record : a.header.record = b.header.record

end Entity

/-- A record tells neither a state nor a status. -/
def Record.TellsNoLifecycle (record : Record) : Prop :=
  (Mapping.header {} defaultStateField defaultStatusField record).state = .unknown ∧
    (Mapping.header {} defaultStateField defaultStatusField record).status = none

instance (record : Record) : Decidable record.TellsNoLifecycle :=
  inferInstanceAs (Decidable (_ ∧ _))

namespace Entity

variable {record : Record}

/-- A record that is not blank is wrapped as it is read. -/
theorem sameRecord_around (h : record.isBlank = false) :
    (around record).SameRecord (untyped record) := by
  rw [untyped, if_neg (by simp [h])]
  exact ⟨rfl, rfl, rfl⟩

theorem around_eq_untyped (h : record.isBlank = false) (hnone : record.TellsNoLifecycle) :
    around record = untyped record := by
  rw [untyped, if_neg (by simp [h])]
  have hheader (h : Header) (hstate : h.state = .unknown) (hstatus : h.status = none) :
      h = { h with state := .unknown, status := none } := by
    rw [← hstate, ← hstatus]
  rw [hheader _ hnone.1 hnone.2]
  rfl

theorem untyped_of_isBlank (h : record.isBlank = true) : untyped record = {} := if_pos h

end Entity

namespace Manager

variable {σ : Type} {m : Manager σ}

/-! ### Reading without a type -/

theorem reading_dynamicType (m : Manager σ) (record : Record) :
    m.reading dynamicType record = .ok (.untyped record) := by
  cases hblank : record.isBlank with
  | true =>
      rw [reading, Mapping.ofRecord_blank hblank, Entity.untyped_of_isBlank hblank,
        Catalog.fresh_dynamicType]
  | false =>
      have hunmapped : m.catalog.schema? dynamicType = none := Catalog.schema?_dynamicType _
      rw [Entity.untyped, if_neg (by simp [hblank])]
      show Mapping.readWith (Mapping.readWithin m.catalog m.converters (Mapping.depthLimit - 1))
        m.catalog m.converters dynamicType record = _
      rw [Mapping.readWith_unmapped hunmapped hblank, Mapping.started, Catalog.fresh_dynamicType]

theorem maps_dynamicType (m : Manager σ) (record : Record) : m.maps dynamicType record = true := by
  rw [maps, reading_dynamicType]
  rfl

/-- Dynamic entities have no links to resolve. -/
theorem due_dynamicType (m : Manager σ) (record : Record) : m.due dynamicType record = [] := by
  unfold due
  rw [Catalog.schema?_dynamicType]
  cases m.config.resolveEager <;> rfl

/-- Asked with a query in a session, the store brings a page. -/
def Brings (m : Manager σ) (q : PageQuery) (s : Session σ) (page : Page) : Prop :=
  (m.store.answer (.retrieve q) s.store).1 = .ok page

/-- **A page of dynamic entities** has every record of the page as it is read without a type. -/
theorem entities_fetch_dynamicType {q : PageQuery} {s : Session σ} {page : Page}
    (h : m.Brings q s page) :
    (m.fetch dynamicType q s).1.entities = page.records.map .untyped := by
  obtain ⟨visits, hvisits, hdoes⟩ := does_fetch_ok h dynamicType
  rw [hdoes.value]
  have hrecords : visits.map (·.record) = page.records := by
    rw [hvisits.mapped, List.filter_eq_self.mpr fun record _ => maps_dynamicType m record]
  rw [← hrecords, List.map_map]
  refine List.map_congr_left fun v hv => ?_
  have hvisited := hvisits.visited v hv
  have hnone : v.replies = [] :=
    List.map_eq_nil_iff.mp (hvisited.due.trans (due_dynamicType m v.record))
  have hread := hvisited.reads
  rw [reading_dynamicType] at hread
  rw [hvisited.resolved.kept (by simp [hnone])]
  exact (Except.ok.inj hread).symm

/-- A lookup's record is the first of the page, wrapped. -/
theorem findByReference_of_brings {r : Reference} {s : Session σ} {page : Page}
    (h : m.Brings (r.pageQuery false) s page) :
    (m.findByReference r s).1 = page.records.head?.map .around :=
  ((does_fetchRecord_ok h).map (Option.map Entity.around)).value

theorem entities_retrieve_dynamicType {q : PageQuery} {s : Session σ} {page : Page}
    (h : m.Brings q s page) :
    (m.retrieve dynamicType q s).1.batch.entities = page.records.map .untyped :=
  entities_fetch_dynamicType h

theorem entities_findUntyped {name : String} {search : Search} {q : PageQuery}
    (hq : search.toUntypedPageQuery name = .ok q) {s : Session σ} {page : Page}
    (h : m.Brings { q with countTotal := m.config.countTotal } s page) :
    (m.findUntyped name search s).1.batch.entities = page.records.map .untyped := by
  have hquery : m.untypedQuery name search s
      = (some { q with countTotal := m.config.countTotal }, s) := by
    unfold untypedQuery
    rw [hq]
    rfl
  have hrun : m.findUntyped name search s
      = m.retrieve dynamicType { q with countTotal := m.config.countTotal } s := by
    unfold findUntyped
    rw [run_bind _ (congrArg Prod.fst hquery), hquery]
  rw [hrun]
  exact entities_retrieve_dynamicType h

/--
**A record looks the same however it is fetched without a type.**

Where the store brings one page for a lookup, for a search among an entity's records and for a query
for dynamic entities, the three give the page's first record, and unless it is blank its identity,
name and attributes are the same in each; a record that tells no lifecycle gives one and the same
entity.  A blank record is wrapped by the first and reads as the empty entity in the others.
-/
theorem same_record_however_fetched {page : Page} {record : Record}
    (hfirst : page.records.head? = some record) {r : Reference} {byLookup : Session σ}
    (hlookup : m.Brings (r.pageQuery false) byLookup page) {name : String} {search : Search}
    {q : PageQuery} (hq : search.toUntypedPageQuery name = .ok q) {byName : Session σ}
    (hname : m.Brings { q with countTotal := m.config.countTotal } byName page) {p : PageQuery}
    {byQuery : Session σ} (hquery : m.Brings p byQuery page) :
    ∃ wrapped read, (m.findByReference r byLookup).1 = some wrapped ∧
      (m.findUntyped name search byName).1.batch.entities.head? = some read ∧
      (m.retrieve dynamicType p byQuery).1.batch.entities.head? = some read ∧
      (record.isBlank = false → wrapped.SameRecord read ∧
        (record.TellsNoLifecycle → wrapped = read)) ∧
      (record.isBlank = true → wrapped = .around record ∧ read = {}) := by
  refine ⟨.around record, .untyped record, ?_, ?_, ?_, ?_, ?_⟩
  · rw [findByReference_of_brings hlookup, hfirst]
    rfl
  · rw [entities_findUntyped hq hname, List.head?_map, hfirst]
    rfl
  · rw [entities_retrieve_dynamicType hquery, List.head?_map, hfirst]
    rfl
  · exact fun h => ⟨Entity.sameRecord_around h, Entity.around_eq_untyped h⟩
  · exact fun h => ⟨rfl, Entity.untyped_of_isBlank h⟩

/-! ### Stores that bring one page -/

/-- A manager of no types, whose store brings the same page for every query. -/
def showing (page : Page) : Manager Unit where
  catalog := ⟨fun _ => {}⟩
  store.answer
    | .retrieve _, state => (.ok page, state)
    | .create .., state => (.ok .nil, state)
    | .update .., state => (.ok true, state)
    | .setState .., state => (.ok true, state)
    | .associate .., state => (.ok true, state)

/-- An account that is active, and another. -/
def accounts : Page where
  records :=
    [({ entity := "account", id := ⟨41, by decide⟩ } : Record).set "statecode" (.optionSet 0),
      { entity := "account", id := ⟨42, by decide⟩ }]

theorem same_record_however_fetched_accounts :
    ∃ record, accounts.records.head? = some record ∧ record.isBlank = false ∧
      ∃ wrapped read,
        ((showing accounts).findByReference ⟨"account", ⟨41, by decide⟩⟩ (.start () 1)).1
          = some wrapped ∧
        ((showing accounts).findUntyped "account" {} (.start () 1)).1.batch.entities.head?
          = some read ∧
        ((showing accounts).retrieve dynamicType { entity := "account" } (.start () 1)
          ).1.batch.entities.head? = some read ∧
        wrapped.SameRecord read := by
  have hfirst : accounts.records.head? = some _ := rfl
  have hbrings (q : PageQuery) : (showing accounts).Brings q (.start () 1) accounts := rfl
  have hq : ({} : Search).toUntypedPageQuery "account" = .ok _ := rfl
  obtain ⟨wrapped, read, hwrapped, hname, hquery, hsame, -⟩ :=
    same_record_however_fetched hfirst (hbrings _) hq (hbrings _) (hbrings _)
  exact ⟨_, hfirst, by decide, wrapped, read, hwrapped, hname, hquery, (hsame (by decide)).1⟩

/-- A record with a name and nothing else. -/
def named : Page where
  records := [{ entity := "account", id := .nil }]

/-- A blank record keeps its name where it is wrapped, and loses it where it is read. -/
theorem named_not_same :
    ∃ wrapped read,
      ((showing named).findByReference ⟨"account", .nil⟩ (.start () 1)).1 = some wrapped ∧
      ((showing named).findUntyped "account" {} (.start () 1)).1.batch.entities.head?
        = some read ∧
      wrapped.header.entity = "account" ∧ read.header.entity = "" ∧ ¬wrapped.SameRecord read := by
  refine ⟨_, _, rfl, rfl, rfl, rfl, fun h => ?_⟩
  have hname : "account" = "" := h.entity
  exact absurd hname (by decide)

end Manager

end TypedRecords
