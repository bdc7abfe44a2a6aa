/-
Whose naming hint a request carries.

A type may declare that its entity's name stands as it is for the record set.  A client that works
for one type calls the manager again and again: it looks for entities of the type, moves the cursors
that this brought, and writes.  Everything that its calls send carries what the type declares, and
the lookups that follow a page carry what each linked type declares, but for one kind of request: an
association is sent as if no type declared anything.  So the hint travels with all that a client
does exactly when the type declares no hint or the client associates nothing.
-/
import TypedRecords.Proofs.Manager.Insert
import TypedRecords.Proofs.Query.Search

namespace TypedRecords

open Query (PageQuery Search)

/-! ### What a type declares -/

/-- A type is mapped and declares that its entity's name stands as it is. -/
def Catalog.declaresVerbatim (catalog : Catalog) (type : TypeName) : Bool :=
  catalog.isMapped type && decide (.verbatim ∈ (catalog.describe type).declarations)

theorem Schema.Draft.verbatim_declare {namesOf : TypeName → List String} (d : Draft)
    (declaration : Declaration) :
    (d.declare namesOf declaration).schema.verbatim
      = (d.schema.verbatim || decide (.verbatim = declaration)) := by
  cases declaration with
  | scalar slot member wire =>
      rw [declare, schema_push]
      exact (Bool.or_false _).symm
  | link slot linked member wire targets =>
      rw [declare, schema_push]
      exact (Bool.or_false _).symm
  | choice =>
      rw [declare, schema_modifyLast]
      exact (Bool.or_false _).symm
  | eager =>
      rw [declare, schema_modifyLast]
      exact (Bool.or_false _).symm
  | readOnly =>
      rw [declare, schema_modifyLast]
      exact (Bool.or_false _).symm
  | verbatim => exact (Bool.or_true _).symm
  | _ => exact (Bool.or_false _).symm

/-- Replaying declarations sets the hint when it is among them, wherever it stands. -/
theorem Schema.verbatim_replay {namesOf : TypeName → List String}
    (declarations : List Declaration) : ∀ d : Draft,
    (declarations.foldl (Draft.declare namesOf) d).schema.verbatim
      = (d.schema.verbatim || decide (.verbatim ∈ declarations)) := by
  induction declarations with
  | nil => intro d; simp
  | cons declaration rest ih =>
      intro d
      rw [List.foldl_cons, ih, Draft.verbatim_declare, Bool.or_assoc, ← Bool.decide_or]
      simp only [List.mem_cons]

/-- A schema has the hint that its type declares. -/
theorem Catalog.verbatim_of_schema? {catalog : Catalog} {type : TypeName} {s : Schema}
    (hs : catalog.schema? type = some s) : s.verbatim = catalog.declaresVerbatim type := by
  have hmapped : catalog.isMapped type = true := by
    rw [← catalog.isSome_schema?, hs]
    rfl
  unfold Catalog.schema? at hs
  rw [if_pos hmapped] at hs
  cases hs
  unfold declaresVerbatim
  rw [hmapped, Bool.true_and]
  exact (Schema.verbatim_replay _ _).trans (Bool.false_or _)

/-- What requests are sent with is what the type declares; an unmapped type declares nothing. -/
theorem Catalog.verbatim_eq_declaresVerbatim (catalog : Catalog) (type : TypeName) :
    catalog.verbatim type = catalog.declaresVerbatim type := by
  unfold Catalog.verbatim
  cases hs : catalog.schema? type with
  | some s => exact verbatim_of_schema? hs
  | none =>
      have hmapped : catalog.isMapped type = false := by
        rw [← catalog.isSome_schema?, hs]
        rfl
      unfold declaresVerbatim
      rw [hmapped]
      rfl

/-- A search among a mapped type's entities is asked for with the hint that the type declares. -/
theorem Query.verbatim_of_toPageQuery {catalog : Catalog} {type : TypeName} {schema : Schema}
    {search : Search} {q : PageQuery} (hs : catalog.schema? type = some schema)
    (h : search.toPageQuery catalog schema = .ok q) :
    q.verbatim = catalog.declaresVerbatim type := by
  have hschema : q.verbatim = schema.verbatim := by
    rw [Query.toPageQuery_eq, map_eq_ok] at h
    obtain ⟨f, -, rfl⟩ := h
    rfl
  exact hschema.trans (Catalog.verbatim_of_schema? hs)

/-- The query for a neighbouring page is the same but for the page. -/
theorem Direction.verbatim_of_step? {direction : Direction} {q r : PageQuery}
    (h : direction.step? q = some r) : r.verbatim = q.verbatim := by
  cases direction with
  | next =>
      obtain ⟨-, h⟩ := Option.ite_none_right_eq_some.mp h
      cases h
      rfl
  | previous =>
      obtain ⟨-, h⟩ := Option.ite_none_right_eq_some.mp h
      cases h
      rfl

/-- The request associates two records. -/
def Request.isAssociation : Request → Bool
  | .associate .. => true
  | _ => false

namespace Manager

variable {σ α β : Type} {m : Manager σ} {type : TypeName}

/-! ### Requests with their hints -/

/-- Requests ask for the records of follow-ups, one after the other, each with the hint that its own
linked type declares. -/
def AsksForEach (m : Manager σ) : List FollowUp → List Request → Prop :=
  List.Forall₂ fun f request => ∃ q, request = .retrieve q ∧
    q.AsksFor f.lookup (m.catalog.declaresVerbatim f.linked)

theorem asksForEach_requestsFor (m : Manager σ) (followUps : List FollowUp) :
    m.AsksForEach followUps (m.requestsFor followUps) := by
  induction followUps with
  | nil => exact .nil
  | cons f rest ih =>
      refine .cons ⟨f.query m, rfl, ?_⟩ ih
      rw [← Catalog.verbatim_eq_declaresVerbatim]
      exact f.asksFor_query m

/-- Requests for a type's entities carry the hint that the type declares, and those for linked
entities the one that the linked type declares.  Which hint associations carry is left open. -/
inductive Hinted (m : Manager σ) (type : TypeName) (associations : Bool) : List Request → Prop
  | nothing : Hinted m type associations []
  /-- A page request with the lookups that follow the page's records. -/
  | page {q : PageQuery} (hq : q.verbatim = m.catalog.declaresVerbatim type)
      (records : List Record) {lookups rest : List Request}
      (hlookups : m.AsksForEach (records.flatMap (m.due type)) lookups)
      (hrest : Hinted m type associations rest) :
      Hinted m type associations (.retrieve q :: (lookups ++ rest))
  | create (record : Record) {rest : List Request} (hrest : Hinted m type associations rest) :
      Hinted m type associations (.create record (m.catalog.declaresVerbatim type) :: rest)
  | update (record : Record) {rest : List Request} (hrest : Hinted m type associations rest) :
      Hinted m type associations (.update record (m.catalog.declaresVerbatim type) :: rest)
  | associate (root child : Reference) (relationship : String) {rest : List Request}
      (hrest : Hinted m type associations rest) :
      Hinted m type associations (.associate root child relationship associations :: rest)

namespace Hinted

variable {associations : Bool} {requests others : List Request}

theorem append (h : Hinted m type associations requests)
    (hothers : Hinted m type associations others) :
    Hinted m type associations (requests ++ others) := by
  induction h with
  | nothing => exact hothers
  | page hq records hlookups _ ih =>
      rw [List.cons_append, List.append_assoc]
      exact .page hq records hlookups ih
  | create record _ ih => exact .create record ih
  | update record _ ih => exact .update record ih
  | associate root child relationship _ ih => exact .associate root child relationship ih

/-- One page request with its follow-ups. -/
theorem onePage {q : PageQuery} (hq : q.verbatim = m.catalog.declaresVerbatim type)
    (records : List Record) {lookups : List Request}
    (hlookups : m.AsksForEach (records.flatMap (m.due type)) lookups) :
    Hinted m type associations (.retrieve q :: lookups) := by
  rw [← List.append_nil lookups]
  exact .page hq records hlookups .nothing

theorem isAssociation_lookup {followUps : List FollowUp} {lookups : List Request} {r : Request}
    (hlookups : m.AsksForEach followUps lookups) (hr : r ∈ lookups) : r.isAssociation = false := by
  induction hlookups with
  | nil => cases hr
  | cons hfirst _ ih =>
      rcases List.mem_cons.mp hr with rfl | hr
      · obtain ⟨q, rfl, -⟩ := hfirst
        rfl
      · exact ih hr

/-- An association carries the one hint that associations carry. -/
theorem hint_of_associate (h : Hinted m type associations requests) {root child : Reference}
    {relationship : String} {verbatim : Bool}
    (hr : .associate root child relationship verbatim ∈ requests) : verbatim = associations := by
  induction h with
  | nothing => cases hr
  | page hq records hlookups _ ih =>
      rcases List.mem_cons.mp hr with hr | hr
      · cases hr
      · rcases List.mem_append.mp hr with hr | hr
        · cases isAssociation_lookup hlookups hr
        · exact ih hr
  | create record _ ih =>
      rcases List.mem_cons.mp hr with hr | hr
      · cases hr
      · exact ih hr
  | update record _ ih =>
      rcases List.mem_cons.mp hr with hr | hr
      · cases hr
      · exact ih hr
  | associate _ _ _ _ ih =>
      rcases List.mem_cons.mp hr with hr | hr
      · cases hr
        rfl
      · exact ih hr

/-- Without associations it does not matter which hint they carry. -/
theorem of_no_association (h : Hinted m type associations requests)
    (hnone : ∀ r ∈ requests, r.isAssociation = false) (other : Bool) :
    Hinted m type other requests := by
  induction h with
  | nothing => exact .nothing
  | page hq records hlookups _ ih =>
      exact .page hq records hlookups (ih fun r hr => hnone r (by simp [hr]))
  | create record _ ih => exact .create record (ih fun r hr => hnone r (by simp [hr]))
  | update record _ ih => exact .update record (ih fun r hr => hnone r (by simp [hr]))
  | associate root child relationship _ _ => cases hnone _ (List.mem_cons_self ..)

/-- The hint that associations carry may be another one only if there are none. -/
theorem iff_no_association (h : Hinted m type associations requests) (other : Bool) :
    Hinted m type other requests
      ↔ (other ≠ associations → ∀ r ∈ requests, r.isAssociation = false) := by
  constructor
  · intro hother hne r hr
    cases r with
    | associate root child relationship verbatim =>
        exact absurd ((hother.hint_of_associate hr).symm.trans (h.hint_of_associate hr)) hne
    | _ => rfl
  · intro hnone
    by_cases heq : other = associations
    · exact heq ▸ h
    · exact h.of_no_association (hnone heq) other

end Hinted

/-! ### Operations that carry the hint -/

/-- Run from any session, what an operation sends carries the hint, but that associations carry
none. -/
def Carries (m : Manager σ) (type : TypeName) (run : Run σ α) : Prop :=
  ∀ s, ∃ new, (run s).2.requests = s.requests ++ new ∧ Hinted m type false new

namespace Carries

theorem of_does {run : Run σ α} (h : ∀ s, ∃ events value, Does m run s events value ∧
    Hinted m type false (requestsOf events)) : Carries m type run := by
  intro s
  obtain ⟨events, value, hdoes, hhinted⟩ := h s
  exact ⟨requestsOf events, hdoes.requests, hhinted⟩

theorem pure (a : α) : Carries m type (Pure.pure a : Run σ α) :=
  of_does fun _ => ⟨[], a, .pure a, .nothing⟩

/-- A sequence carries the hint when its second part does for each value that the first gives. -/
theorem bind {first : Run σ α} {rest : α → Run σ β} (hfirst : Carries m type first)
    (hrest : ∀ s, Carries m type (rest (first s).1)) : Carries m type (first >>= rest) := by
  intro s
  obtain ⟨new, hnew, hhinted⟩ := hfirst s
  obtain ⟨more, hmore, hhinted'⟩ := hrest s (first s).2
  refine ⟨new ++ more, ?_, hhinted.append hhinted'⟩
  show (rest (first s).1 (first s).2).2.requests = s.requests ++ (new ++ more)
  rw [hmore, hnew, List.append_assoc]

theorem map {run : Run σ α} (h : Carries m type run) (f : α → β) :
    Carries m type (run >>= fun a => Pure.pure (f a)) :=
  h.bind fun _ => .pure _

/-- A fetch by a query with the hint. -/
theorem fetch {q : PageQuery} (hq : q.verbatim = m.catalog.declaresVerbatim type) :
    Carries m type (m.fetch type q) := by
  intro s
  refine ⟨_, m.requests_fetch type q s, ?_⟩
  exact .onePage hq _ (m.asksForEach_requestsFor _)

end Carries

/-! ### Looking for entities -/

theorem does_mapped? (m : Manager σ) (type : TypeName) (s : Session σ) :
    ∃ events, Does m (m.mapped? type) s events (m.catalog.schema? type) ∧
      requestsOf events = [] := by
  have hschema := Does.schema? (m := m) (s := s) type
  unfold mapped?
  cases hs : m.catalog.schema? type with
  | some schema =>
      rw [hs] at hschema
      exact ⟨[], hschema.bind fun _ _ => .pure (some schema), rfl⟩
  | none =>
      rw [hs] at hschema
      exact ⟨[.reported (.unmapped type)],
        hschema.bind fun _ _ => (Does.report (.unmapped type)).bind fun _ _ => .pure none, rfl⟩

/-- A search is asked for with the hint of its type's schema, and sends nothing by itself. -/
theorem does_typedQuery (m : Manager σ) (type : TypeName) (search : Search) (s : Session σ) :
    ∃ events found, Does m (m.typedQuery type search) s events found ∧ requestsOf events = [] ∧
      ∀ q ∈ found, q.verbatim = m.catalog.declaresVerbatim type := by
  obtain ⟨events, hmapped, hnone⟩ := does_mapped? m type s
  unfold typedQuery
  cases hs : m.catalog.schema? type with
  | none =>
      rw [hs] at hmapped
      exact ⟨events ++ [], none, hmapped.bind fun _ _ => .pure none, by simp [hnone], by simp⟩
  | some schema =>
      rw [hs] at hmapped
      cases hq : search.toPageQuery m.catalog schema with
      | error e =>
          refine ⟨events ++ [.reported (.compilation e)], none,
            hmapped.bind fun _ _ => (Does.ask _).bind fun _ _ => ?_, ?_, by simp⟩
          · rw [hq]
            exact (Does.report (.compilation e)).bind fun _ _ => .pure none
          · rw [requestsOf_append, hnone]
            rfl
      | ok q =>
          refine ⟨events ++ [], some { q with countTotal := m.config.countTotal },
            hmapped.bind fun _ _ => (Does.ask _).bind fun _ _ => ?_, by simp [hnone], ?_⟩
          · rw [hq]
            exact .pure _
          · have hverbatim := Query.verbatim_of_toPageQuery hs hq
            intro r hr
            cases hr
            exact hverbatim

theorem find_of_query {search : Search} {s : Session σ} {q : PageQuery}
    (h : (m.typedQuery type search s).1 = some q) :
    m.find type search s = m.retrieve type q (m.typedQuery type search s).2 :=
  run_bind _ h

theorem find_of_no_query {search : Search} {s : Session σ}
    (h : (m.typedQuery type search s).1 = none) :
    m.find type search s = (.failed type, (m.typedQuery type search s).2) :=
  run_bind _ h

/-- A cursor that looking for a type's entities brought, with the moves made since. -/
inductive Brought (m : Manager σ) (type : TypeName) : Cursor → Prop
  | found (search : Search) (s : Session σ) : Brought m type (m.find type search s).1
  | moved {c : Cursor} (h : Brought m type c) (direction : Direction) (s : Session σ) :
      Brought m type (c.move m direction s).1.2

/-- Such a cursor keeps the type and the hint. -/
theorem Brought.hinted {c : Cursor} (h : Brought m type c) :
    c.type = type ∧ ∀ q ∈ c.query, q.verbatim = m.catalog.declaresVerbatim type := by
  induction h with
  | found search s =>
      obtain ⟨events, found, hdoes, -, hverbatim⟩ := does_typedQuery m type search s
      cases found with
      | none =>
          rw [find_of_no_query hdoes.value]
          exact ⟨rfl, fun q hq => by cases hq⟩
      | some q =>
          rw [find_of_query hdoes.value]
          exact ⟨rfl, hverbatim⟩
  | @moved c _ direction s ih =>
      unfold Cursor.move
      cases hstep : c.query.bind direction.step? with
      | none => exact ih
      | some r =>
          refine ⟨ih.1, fun q hq => ?_⟩
          cases hq
          obtain ⟨q, hq, hstep⟩ := Option.bind_eq_some_iff.mp hstep
          rw [Direction.verbatim_of_step? hstep]
          exact ih.2 q hq

namespace Carries

theorem report (e : Error) : Carries m type (Manager.report e : Run σ Unit) :=
  of_does fun _ => ⟨_, _, .report e, .nothing⟩

theorem mapped? : Carries m type (m.mapped? type) := by
  refine of_does fun s => ?_
  obtain ⟨events, hdoes, hnone⟩ := does_mapped? m type s
  exact ⟨events, _, hdoes, hnone ▸ .nothing⟩

theorem typedQuery (search : Search) : Carries m type (m.typedQuery type search) := by
  refine of_does fun s => ?_
  obtain ⟨events, found, hdoes, hnone, -⟩ := does_typedQuery m type search s
  exact ⟨events, found, hdoes, hnone ▸ .nothing⟩

theorem find (search : Search) : Carries m type (m.find type search) := by
  refine (typedQuery search).bind fun s => ?_
  obtain ⟨events, found, hdoes, -, hverbatim⟩ := does_typedQuery m type search s
  rw [hdoes.value]
  cases found with
  | none => exact .pure _
  | some q => exact (fetch (hverbatim q rfl)).map _

theorem findById (id : Identity) : Carries m type (m.findById type id) := by
  refine mapped?.bind fun s => ?_
  obtain ⟨events, hdoes, -⟩ := does_mapped? m type s
  rw [hdoes.value]
  cases hs : m.catalog.schema? type with
  | none => exact .pure _
  | some schema =>
      dsimp only
      cases hq : (identitySearch id).toPageQuery m.catalog schema with
      | error e => exact (report _).bind fun _ => .pure _
      | ok q =>
          have hverbatim : q.verbatim = m.catalog.declaresVerbatim type :=
            Query.verbatim_of_toPageQuery hs hq
          exact (fetch (q := { q with countTotal := false }) hverbatim).map _

theorem move {c : Cursor} (hc : Brought m type c) (direction : Direction) :
    Carries m type (c.move m direction) := by
  obtain ⟨htype, hverbatim⟩ := hc.hinted
  unfold Cursor.move
  cases hstep : c.query.bind direction.step? with
  | none => exact .pure _
  | some r =>
      obtain ⟨q, hq, hstep⟩ := Option.bind_eq_some_iff.mp hstep
      rw [htype]
      exact (fetch ((Direction.verbatim_of_step? hstep).trans (hverbatim q hq))).map _

theorem pagesAfter (q : PageQuery) : q.verbatim = m.catalog.declaresVerbatim type →
    Carries m type (Cursor.pagesAfter m type q) := by
  induction q using PageQuery.next_induction with
  | last q hnone =>
      intro _
      rw [Cursor.pagesAfter_last hnone]
      exact .pure _
  | next q r hsome ih =>
      intro hq
      have hstep : Direction.next.step? q = some r := hsome
      have hr : r.verbatim = m.catalog.declaresVerbatim type :=
        (Direction.verbatim_of_step? hstep).trans hq
      rw [Cursor.pagesAfter_next hsome]
      refine (fetch hr).bind fun s => ?_
      split
      · exact .pure _
      · exact (ih hr).map _

theorem allPages {c : Cursor} (hc : Brought m type c) : Carries m type (c.allPages m) := by
  obtain ⟨htype, hverbatim⟩ := hc.hinted
  unfold Cursor.allPages
  cases hq : c.query with
  | none => exact .pure _
  | some q =>
      rw [htype]
      exact (pagesAfter q (hverbatim q hq)).map _

/-! ### Writing -/

theorem writing (operation : String) {run : Run σ α} (h : Carries m type run) :
    Carries m type (m.writing operation run) := by
  unfold Manager.writing
  split
  · exact .pure _
  · exact h.map _

theorem insertion (e : Entity) : Carries m type (m.insertion type e) := by
  refine of_does fun s => ?_
  cases hwrite : e.toRecord m.catalog m.converters type with
  | error error => exact ⟨_, _, does_insertion_error hwrite s, .nothing⟩
  | ok record =>
      have hone : Hinted m type false [.create record (m.catalog.verbatim type)] := by
        rw [Catalog.verbatim_eq_declaresVerbatim]
        exact .create record .nothing
      cases hanswer : (m.store.answer (.create record (m.catalog.verbatim type)) s.store).1 with
      | error error => exact ⟨_, _, does_insertion_failed hwrite hanswer, hone⟩
      | ok id => exact ⟨_, _, does_insertion_created hwrite hanswer, hone⟩

theorem insert (e : Entity) : Carries m type (m.insert type e) := by
  refine (writing "insert" (insertion e)).bind fun s => ?_
  cases (m.writing "insert" (m.insertion type e) s).1 with
  | ok result => exact .pure _
  | error error => exact .pure _

theorem update (e : Entity) : Carries m type (m.update type e) := by
  refine writing "update" (of_does fun s => ?_)
  cases hwrite : e.toRecord m.catalog m.converters type with
  | error error =>
      exact ⟨_, _, (does_outgoing_error hwrite s).bind fun _ _ => .pure false, .nothing⟩
  | ok record =>
      obtain ⟨events, answer, hchange, hrequests⟩ :=
        does_change m (.update record (m.catalog.verbatim type)) id (m.outgoing type e s).2
      refine ⟨_, _, (does_outgoing_ok hwrite s).bind_at hchange, ?_⟩
      rw [List.nil_append, hrequests, Catalog.verbatim_eq_declaresVerbatim]
      exact .update record .nothing

theorem insertOrUpdate (e : Entity) : Carries m type (m.insertOrUpdate type e) := by
  unfold Manager.insertOrUpdate
  split
  · exact insert e
  · exact (update e).map _

theorem relationshipName? (member : String) :
    Carries m type (m.relationshipName? type member) := by
  refine mapped?.bind fun s => ?_
  cases (m.mapped? type s).1 with
  | none => exact .pure _
  | some schema =>
      dsimp only
      cases schema.relationship? member with
      | some r => exact .pure _
      | none => exact (report _).bind fun _ => .pure _

/-- An association carries no hint, whatever the type declares. -/
theorem associate (root child : Reference) (relationship : String) :
    Carries m type (m.associate root child relationship) := by
  refine writing "associate" (of_does fun s => ?_)
  obtain ⟨events, answer, hchange, hrequests⟩ :=
    does_change m (.associate root child relationship false) id s
  exact ⟨events, answer, hchange, hrequests ▸ .associate root child relationship .nothing⟩

theorem associateRelated (e : Entity) (related : Reference) (member : String) :
    Carries m type (m.associateRelated type e related member) := by
  unfold Manager.associateRelated
  split
  · exact .pure _
  · refine (relationshipName? member).bind fun s => ?_
    cases (m.relationshipName? type member s).1 with
    | some relationship => exact associate e.reference related relationship
    | none => exact .pure _

end Carries

/-! ### Clients of one type -/

/-- A read for a type: it looks for the type's entities, or goes on with what that brought. -/
inductive Read.IsFor (m : Manager σ) (type : TypeName) : Read → Prop
  | find (search : Search) : Read.IsFor m type (.find type search)
  | findById (id : Identity) : Read.IsFor m type (.findById type id)
  | move {c : Cursor} (h : Brought m type c) (direction : Direction) :
      Read.IsFor m type (.move c direction)
  | allPages {c : Cursor} (h : Brought m type c) : Read.IsFor m type (.allPages c)

/-- A write for a type: it writes an entity of the type, or associates one. -/
inductive Write.IsFor (type : TypeName) : Write → Prop
  | insert (e : Entity) : Write.IsFor type (.insert type e)
  | update (e : Entity) : Write.IsFor type (.update type e)
  | insertOrUpdate (e : Entity) : Write.IsFor type (.insertOrUpdate type e)
  | associateRelated (e : Entity) (related : Reference) (member : String) :
      Write.IsFor type (.associateRelated type e related member)

/-- A client whose calls are all for one type, whatever they are answered. -/
inductive Client.IsFor (m : Manager σ) (type : TypeName) : Client α → Prop
  | done (a : α) : Client.IsFor m type (.done a)
  | reads {call : Read} {next : call.Answer → Client α} (hcall : call.IsFor m type)
      (hnext : ∀ s, (next (m.read call s).1).IsFor m type) : Client.IsFor m type (.reads call next)
  | writes {call : Write} {next : call.Answer → Client α} (hcall : call.IsFor type)
      (hnext : ∀ s, (next (m.write call s).1).IsFor m type) :
      Client.IsFor m type (.writes call next)

theorem Carries.read {call : Read} (h : call.IsFor m type) : Carries m type (m.read call) := by
  cases h with
  | find search => exact find search
  | findById id => exact findById id
  | move h direction => exact move h direction
  | allPages h => exact allPages h

theorem Carries.write {call : Write} (h : call.IsFor type) : Carries m type (m.write call) := by
  cases h with
  | insert e => exact insert e
  | update e => exact update e
  | insertOrUpdate e => exact insertOrUpdate e
  | associateRelated e related member => exact associateRelated e related member

theorem Carries.run {client : Client α} (h : client.IsFor m type) :
    Carries m type (client.run m) := by
  induction h with
  | done a => exact pure a
  | reads hcall _ ih => exact (read hcall).bind ih
  | writes hcall _ ih => exact (write hcall).bind ih

/-- A catalog of teams with eager administrators, who are users under a name that stands as it is. -/
def staff : Catalog where
  describe
    | "Team" =>
        { names := ["team"]
          declarations :=
            [.link "administrator" "User" "administrator" "administratorid" [], .eager] }
    | "User" =>
        { names := ["systemuser"]
          declarations := [.relationship ⟨"user_roles", "roles", "systemuser", "role", none, none⟩,
            .verbatim] }
    | _ => {}

/-- A team that has an administrator. -/
def team : Record :=
  ({ entity := "team", id := ⟨10, by decide⟩ } : Record).set "administratorid"
    (.reference ⟨"systemuser", ⟨11, by decide⟩⟩)

/-- A store with one team and no users. -/
def staffStore : RecordStore Unit where
  answer
    | .retrieve q, state => (.ok { records := if q.entity = "team" then [team] else [] }, state)
    | .create .., state => (.ok ⟨13, by decide⟩, state)
    | .update .., state => (.ok true, state)
    | .setState .., state => (.ok true, state)
    | .associate .., state => (.ok true, state)

/-- A manager of teams and users. -/
def staffManager : Manager Unit := { catalog := staff, store := staffStore }

/-- Looks for teams and goes on to the next page. -/
def lookingForTeams : Client Bool :=
  .reads (.find "Team" {}) fun c => .reads (.move c .next) fun moved => .done moved.1

/-- Gives a user a role. -/
def givingRole : Client (Except Error Bool) :=
  .writes (.associateRelated "User" { header := { id := ⟨11, by decide⟩, entity := "systemuser" } }
    ⟨"role", ⟨12, by decide⟩⟩ "roles") .done

end Manager

end TypedRecords
