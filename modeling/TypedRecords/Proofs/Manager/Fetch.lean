/-
A fetched page degrades record by record.

A page's records are read one by one; those that do not map are a fault each and left out.  Then the
follow-ups of each entity are sent in turn, and what comes of one is decided by its reply alone: a
linked entity for its slot, or the faults that tell why there is none.  So the events of a fetch are
known record by record and reply by reply, and an entity is the one read from its record but for the
slots that a reply filled.  What the store answers is left open throughout: the replies of a page are
the store's own, in the order in which the follow-ups were sent.
-/
import Mathlib.Data.List.Forall2
import TypedRecords.Manager.Fetch
import TypedRecords.Proofs.Manager.Events
import TypedRecords.Proofs.Mapping.Reading
import TypedRecords.Proofs.Record

namespace TypedRecords

open Query (PageQuery Page)

/-- The query of a follow-up. -/
def FollowUp.query {σ : Type} (f : FollowUp) (m : Manager σ) : PageQuery :=
  f.lookup.pageQuery (m.catalog.verbatim f.linked)

theorem FollowUp.asksFor_query {σ : Type} (f : FollowUp) (m : Manager σ) :
    (f.query m).AsksFor f.lookup (m.catalog.verbatim f.linked) :=
  f.lookup.asksFor_pageQuery _

namespace Manager

variable {σ : Type}

/-! ### The records of a page -/

/-- A record maps. -/
def maps (m : Manager σ) (type : TypeName) (record : Record) : Bool :=
  (m.reading type record).isOk

/-- The entities read from those records that map. -/
def readings (m : Manager σ) (type : TypeName) (records : List Record) : List Entity :=
  records.filterMap fun record => (m.reading type record).toOption

/-- The faults of those records that do not map. -/
def failures (m : Manager σ) (type : TypeName) (records : List Record) : List Error :=
  records.filterMap fun record =>
    match m.reading type record with
    | .ok _ => none
    | .error e => some (.mapping e)

section

variable {m : Manager σ} {type : TypeName} {record : Record}

theorem readings_cons_of_ok {e : Entity} (h : m.reading type record = .ok e)
    (rest : List Record) :
    m.readings type (record :: rest) = e :: m.readings type rest :=
  List.filterMap_cons_some (by simp [h, Except.toOption])

theorem readings_cons_of_error {e : MappingError} (h : m.reading type record = .error e)
    (rest : List Record) : m.readings type (record :: rest) = m.readings type rest :=
  List.filterMap_cons_none (by simp [h, Except.toOption])

theorem failures_cons_of_ok {e : Entity} (h : m.reading type record = .ok e)
    (rest : List Record) : m.failures type (record :: rest) = m.failures type rest :=
  List.filterMap_cons_none (by simp [h])

theorem failures_cons_of_error {e : MappingError} (h : m.reading type record = .error e)
    (rest : List Record) :
    m.failures type (record :: rest) = .mapping e :: m.failures type rest :=
  List.filterMap_cons_some (by simp [h])

theorem filter_maps_of_ok {e : Entity} (h : m.reading type record = .ok e) (rest : List Record) :
    (record :: rest).filter (m.maps type) = record :: rest.filter (m.maps type) :=
  List.filter_cons_of_pos (by simp [maps, h, Except.isOk, Except.toBool])

theorem filter_maps_of_error {e : MappingError} (h : m.reading type record = .error e)
    (rest : List Record) : (record :: rest).filter (m.maps type) = rest.filter (m.maps type) :=
  List.filter_cons_of_neg (by simp [maps, h, Except.isOk, Except.toBool])

end

/-- Records are read one by one; one that does not map is a fault and nothing else. -/
theorem does_readEach (m : Manager σ) (type : TypeName) (records : List Record) :
    ∀ s : Session σ, Does m (m.readEach type records) s
      ((m.failures type records).map .reported) (m.readings type records) := by
  induction records with
  | nil => exact fun s => .pure []
  | cons record rest ih =>
      intro s
      unfold readEach
      cases h : m.reading type record with
      | ok e =>
          rw [readings_cons_of_ok h, failures_cons_of_ok h]
          refine (Does.ofRecord type record).bind fun s' _ => ?_
          rw [h]
          exact (ih s').map (e :: ·)
      | error e =>
          rw [readings_cons_of_error h, failures_cons_of_error h]
          refine (Does.ofRecord type record).bind fun s' _ => ?_
          rw [h]
          exact (Does.report (.mapping e)).bind fun s' _ => ih s'

/-! ### One follow-up -/

end Manager

/-- The follow-up that a field calls for: the field is an eager link, and the record's attribute is a
lookup to a record. -/
def Field.followUp? (f : Field) (record : Record) : Option FollowUp :=
  match f.binding, (record.get? f.wire).bind Value.asReference? with
  | .link slot linked, some lookup =>
    if f.eager ∧ lookup.id ≠ .nil then some ⟨slot, linked, lookup⟩ else none
  | _, _ => none

namespace Manager

variable {σ : Type}

/-- The follow-ups that a record calls for, in the order of the fields, if links are to be
resolved. -/
def due (m : Manager σ) (type : TypeName) (record : Record) : List FollowUp :=
  match m.config.resolveEager, m.catalog.schema? type with
  | true, some s => s.fields.filterMap (·.followUp? record)
  | _, _ => []

end Manager

/-- A follow-up and its answer. -/
structure Reply where
  link : FollowUp
  answer : Except StoreError Page

namespace Reply

variable {σ : Type}

/-- What comes of a reply: the linked entity that it brings, or the faults that tell why there is
none.  That no record was found is no fault. -/
def outcome (m : Manager σ) (r : Reply) : Except (List Error) Entity :=
  match r.answer with
  | .error e => .error [.store e]
  | .ok page =>
    match page.records.head? with
    | none => .error []
    | some record =>
      match m.reading r.link.linked record with
      | .error e => .error [.mapping e]
      | .ok child => .ok (Mapping.settle { record, lookup := some r.link.lookup } child)

/-- The linked entity that a reply brings. -/
def child? (m : Manager σ) (r : Reply) : Option Entity := (r.outcome m).toOption

/-- The faults of a reply. -/
def faults (m : Manager σ) (r : Reply) : List Error :=
  match r.outcome m with
  | .ok _ => []
  | .error faults => faults

/-- The request of a follow-up and the faults of its reply. -/
def events (m : Manager σ) (r : Reply) : List Event :=
  .sent (.retrieve (r.link.query m)) :: (r.faults m).map .reported

/-- An entity with what a reply brings. -/
def put (m : Manager σ) (e : Entity) (r : Reply) : Entity :=
  match r.outcome m with
  | .ok child => e.setLink r.link.slot (some child)
  | .error _ => e

section

variable {m : Manager σ} {r : Reply}

theorem events_of_ok {child : Entity} (h : r.outcome m = .ok child) :
    r.events m = [.sent (.retrieve (r.link.query m))] := by
  simp [events, faults, h]

theorem events_of_error {faults : List Error} (h : r.outcome m = .error faults) :
    r.events m = .sent (.retrieve (r.link.query m)) :: faults.map .reported := by
  simp [events, Reply.faults, h]

theorem put_of_ok {child : Entity} (h : r.outcome m = .ok child) (e : Entity) :
    r.put m e = e.setLink r.link.slot (some child) := by
  simp [put, h]

theorem put_of_error {faults : List Error} (h : r.outcome m = .error faults) (e : Entity) :
    r.put m e = e := by
  simp [put, h]

end

/-- What replies bring for a slot, the last if several do. -/
def filled? (m : Manager σ) (slot : String) (replies : List Reply) : Option Entity :=
  ((replies.filter (·.link.slot = slot)).filterMap (·.child? m)).getLast?

end Reply

namespace Manager

variable {σ : Type}

theorem does_fetchRecord_ok {m : Manager σ} {s : Session σ} {q : PageQuery} {page : Page}
    (h : (m.store.answer (.retrieve q) s.store).1 = .ok page) :
    Does m (m.fetchRecord q) s [.sent (.retrieve q)] page.records.head? := by
  refine (Does.send (.retrieve q)).bind fun s' _ => ?_
  rw [h]
  exact .pure _

theorem does_fetchRecord_error {m : Manager σ} {s : Session σ} {q : PageQuery} {e : StoreError}
    (h : (m.store.answer (.retrieve q) s.store).1 = .error e) :
    Does m (m.fetchRecord q) s [.sent (.retrieve q), .reported (.store e)] none := by
  refine (Does.send (.retrieve q)).bind fun s' _ => ?_
  rw [h]
  exact (Does.report (.store e)).bind fun _ _ => .pure none

/-- **What a follow-up does is decided by its reply.** -/
theorem does_followUp (m : Manager σ) (e : Entity) (f : FollowUp) (s : Session σ) {r : Reply}
    (hr : r = ⟨f, (m.store.answer (.retrieve (f.query m)) s.store).1⟩) :
    Does m (m.followUp e f) s (r.events m) (r.put m e) := by
  subst hr
  cases hanswer : (m.store.answer (.retrieve (f.query m)) s.store).1 with
  | error error =>
      have houtcome : Reply.outcome m ⟨f, .error error⟩ = .error [.store error] := rfl
      rw [Reply.events_of_error houtcome, Reply.put_of_error houtcome]
      exact (does_fetchRecord_error hanswer).bind fun _ _ => .pure e
  | ok page =>
      have hsent := does_fetchRecord_ok hanswer
      cases hrecord : page.records.head? with
      | none =>
          have houtcome : Reply.outcome m ⟨f, .ok page⟩ = .error [] := by
            simp [Reply.outcome, hrecord]
          rw [Reply.events_of_error houtcome, Reply.put_of_error houtcome]
          rw [hrecord] at hsent
          exact hsent.bind fun _ _ => .pure e
      | some record =>
          rw [hrecord] at hsent
          have hread := fun s' : Session σ =>
            Does.ofRecord (m := m) (s := s') f.linked record
          cases hchild : m.reading f.linked record with
          | ok child =>
              have houtcome : Reply.outcome m ⟨f, .ok page⟩
                  = .ok (Mapping.settle { record, lookup := some f.lookup } child) := by
                simp [Reply.outcome, hrecord, hchild]
              rw [Reply.events_of_ok houtcome, Reply.put_of_ok houtcome]
              refine hsent.bind fun s' _ => (hread s').bind fun s'' _ => ?_
              rw [hchild]
              exact .pure _
          | error error =>
              have houtcome : Reply.outcome m ⟨f, .ok page⟩ = .error [.mapping error] := by
                simp [Reply.outcome, hrecord, hchild]
              rw [Reply.events_of_error houtcome, Reply.put_of_error houtcome]
              refine hsent.bind fun s' _ => (hread s').bind fun s'' _ => ?_
              rw [hchild]
              exact (Does.report (.mapping error)).bind fun _ _ => .pure e

/-! ### The follow-ups of one entity -/

/-- The lookups that are followed are those of the fields that call for it. -/
theorem eagerLookups_filter (s : Schema) (record : Record) :
    (s.eagerLookups record).filter (!·.lookup.id.isNil)
      = s.fields.filterMap (·.followUp? record) := by
  unfold Schema.eagerLookups
  rw [List.filter_filterMap]
  congr 1
  funext f
  unfold Field.followUp?
  cases f.binding with
  | scalar slot => rfl
  | link slot linked =>
      cases f.eager with
      | false => cases (record.get? f.wire).bind Value.asReference? <;> rfl
      | true =>
          cases (record.get? f.wire).bind Value.asReference? with
          | none => rfl
          | some lookup =>
              by_cases hnil : lookup.id = .nil
              · simp [hnil, Identity.isNil, Identity.nil]
              · have hid : lookup.id.isNil = false :=
                  Bool.eq_false_iff.mpr fun h => hnil (Identity.eq_nil_of_isNil h)
                simp [hnil, hid]

/-- A blank record calls for nothing. -/
theorem followUp?_blank {record : Record} (h : record.isBlank = true) (f : Field) :
    f.followUp? record = none := by
  unfold Field.followUp?
  rw [Record.get?_of_isBlank h]
  cases f.binding with
  | scalar slot => rfl
  | link slot linked => rfl

/-- An entity's follow-ups are those of the record that it was read from. -/
theorem does_followUps {m : Manager σ} {type : TypeName} {record : Record} {e : Entity}
    (h : m.reading type record = .ok e) (s : Session σ) :
    Does m (m.followUps type e) s [] (m.due type record) := by
  unfold followUps due
  cases heager : m.config.resolveEager with
  | false => exact .pure []
  | true =>
      refine (Does.schema? type).bind fun s' _ => ?_
      cases hs : m.catalog.schema? type with
      | none => exact .pure []
      | some schema =>
          cases hblank : record.isBlank with
          | true =>
              rw [reading, Mapping.ofRecord_blank hblank] at h
              cases h
              have hnone : schema.fields.filterMap (·.followUp? record) = [] :=
                List.filterMap_eq_nil_iff.mpr fun f _ => followUp?_blank hblank f
              rw [Catalog.fresh_record]
              show Does m (Pure.pure [] : Run σ _) s' [] (schema.fields.filterMap _)
              rw [hnone]
              exact .pure []
          | false =>
              rw [Mapping.record_of_ofRecord hs hblank h]
              show Does m _ s' [] (schema.fields.filterMap _)
              rw [← eagerLookups_filter]
              exact (Does.ask _).bind fun _ _ => .pure _

/-- Replies are what a store in some state answers to follow-ups sent one after the other. -/
structure Answers (m : Manager σ) (state : σ) (followUps : List FollowUp) (replies : List Reply) :
    Prop where
  links : replies.map (·.link) = followUps
  answers : replies.map (·.answer) = m.store.pages (followUps.map (·.query m)) state

/-- The requests of follow-ups. -/
def requestsFor (m : Manager σ) (followUps : List FollowUp) : List Request :=
  (followUps.map (·.query m)).map .retrieve

/-- The replies have no requests but those of their follow-ups. -/
theorem requestsOf_replies (m : Manager σ) (replies : List Reply) :
    requestsOf (replies.flatMap (·.events m)) = m.requestsFor (replies.map (·.link)) := by
  induction replies with
  | nil => rfl
  | cons r rest ih =>
      rw [List.flatMap_cons, requestsOf_append, ih, Reply.events, requestsOf_sent,
        requestsOf_reported]
      rfl

theorem Answers.append {m : Manager σ} {state : σ} {first rest : List FollowUp}
    {replies others : List Reply} (hfirst : m.Answers state first replies)
    (hrest : m.Answers (m.store.after (requestsOf (replies.flatMap (·.events m))) state) rest
      others) : m.Answers state (first ++ rest) (replies ++ others) := by
  rw [requestsOf_replies, hfirst.links] at hrest
  refine ⟨?_, ?_⟩
  · rw [List.map_append, hfirst.links, hrest.links]
  · rw [List.map_append, List.map_append, RecordStore.pages_append, hfirst.answers, hrest.answers]
    rfl

/-- Follow-ups are resolved one reply after the other. -/
theorem does_followUpAll (m : Manager σ) (followUps : List FollowUp) :
    ∀ (e : Entity) (s : Session σ), ∃ replies, m.Answers s.store followUps replies ∧
      Does m (followUps.foldlM m.followUp e) s (replies.flatMap (·.events m))
        (replies.foldl (Reply.put m) e) := by
  induction followUps with
  | nil => exact fun e s => ⟨[], ⟨rfl, rfl⟩, .pure e⟩
  | cons f rest ih =>
      intro e s
      obtain ⟨r, hr⟩ : ∃ r : Reply, r = ⟨f, (m.store.answer (.retrieve (f.query m)) s.store).1⟩ :=
        ⟨_, rfl⟩
      have hone : m.Answers s.store [f] [r] := by
        subst hr
        exact ⟨rfl, rfl⟩
      have hfirst := does_followUp m e f s hr
      obtain ⟨replies, hreplies, hrest⟩ := ih (r.put m e) (m.followUp e f s).2
      rw [hfirst.store, ← List.flatMap_singleton (·.events m) r] at hreplies
      refine ⟨r :: replies, hone.append hreplies, ?_⟩
      rw [List.foldlM_cons]
      exact hfirst.bind_at hrest

end Manager

/-! ### What replies change in an entity -/

namespace Reply

variable {σ : Type} {m : Manager σ}

theorem child?_of_ok {r : Reply} {child : Entity} (h : r.outcome m = .ok child) :
    r.child? m = some child := by
  simp [child?, h, Except.toOption]

theorem child?_of_error {r : Reply} {faults : List Error} (h : r.outcome m = .error faults) :
    r.child? m = none := by
  simp [child?, h, Except.toOption]

theorem filled?_cons (slot : String) (r : Reply) (rest : List Reply) :
    filled? m slot (r :: rest)
      = (filled? m slot rest).or (if r.link.slot = slot then r.child? m else none) := by
  unfold filled?
  by_cases hslot : r.link.slot = slot
  · rw [List.filter_cons_of_pos (by simpa using hslot), if_pos hslot]
    cases hchild : r.child? m with
    | none => rw [List.filterMap_cons_none hchild, Option.or_none]
    | some child =>
        rw [List.filterMap_cons_some hchild, List.getLast?_cons]
        cases List.getLast? _ <;> rfl
  · rw [List.filter_cons_of_neg (by simpa using hslot), if_neg hslot, Option.or_none]

theorem link?_put (slot : String) (r : Reply) (e : Entity) :
    (r.put m e).link? slot
      = (if r.link.slot = slot then r.child? m else none).or (e.link? slot) := by
  cases h : r.outcome m with
  | error faults => rw [put_of_error h, child?_of_error h, ite_self, Option.none_or]
  | ok child =>
      rw [put_of_ok h, child?_of_ok h]
      by_cases hslot : r.link.slot = slot
      · rw [if_pos hslot, hslot, Entity.link?_setLink_self, Option.some_or]
      · rw [if_neg hslot, Entity.link?_setLink_of_ne (Ne.symm hslot), Option.none_or]

/-- An entity is the one that was read, but for the slots that a reply filled. -/
structure Resolved (m : Manager σ) (replies : List Reply) (read e : Entity) : Prop where
  header : e.header = read.header
  members : e.members = read.members
  /-- A slot holds what its replies brought, else what it held. -/
  link (slot : String) : e.link? slot = (filled? m slot replies).or (read.link? slot)
  /-- Replies that bring nothing change nothing. -/
  kept : (∀ r ∈ replies, r.child? m = none) → e = read

/-- One reply changes its slot, if it brings anything. -/
theorem resolved_put (r : Reply) (e : Entity) : Resolved m [r] e (r.put m e) where
  header := by
    cases h : r.outcome m with
    | ok child => rw [put_of_ok h]; rfl
    | error faults => rw [put_of_error h]
  members := by
    cases h : r.outcome m with
    | ok child => rw [put_of_ok h]; rfl
    | error faults => rw [put_of_error h]
  link slot := by
    rw [link?_put, filled?_cons]
    rfl
  kept hnone := by
    cases h : r.outcome m with
    | ok child => cases (child?_of_ok h).symm.trans (hnone r (by simp))
    | error faults => rw [put_of_error h]

/-- Replies taken in one after the other change the slots that any of them filled. -/
theorem resolved_foldl (replies : List Reply) :
    ∀ e : Entity, Resolved m replies e (replies.foldl (put m) e) := by
  induction replies with
  | nil => exact fun e => ⟨rfl, rfl, fun _ => rfl, fun _ => rfl⟩
  | cons r rest ih =>
      intro e
      have hput := resolved_put (m := m) r e
      have hrest := ih (r.put m e)
      refine ⟨hrest.header.trans hput.header, hrest.members.trans hput.members, ?_, ?_⟩
      · intro slot
        rw [List.foldl_cons, hrest.link, hput.link, ← Option.or_assoc]
        congr 1
        rw [filled?_cons, filled?_cons]
        rfl
      · intro hnone
        have hr : r.put m e = e := hput.kept (by simpa using hnone r (by simp))
        rw [List.foldl_cons, hrest.kept fun x hx => hnone x (by simp [hx]), hr]

end Reply

/-! ### A page of entities -/

/-- What became of one record that maps: the entity read from it, the replies to its follow-ups,
and the entity that was returned. -/
structure Visit where
  record : Record
  read : Entity
  replies : List Reply
  entity : Entity

namespace Manager

variable {σ : Type}

/-- A visit goes by its record: the follow-ups are those that the record calls for, and what they
brought is put in. -/
structure Visited (m : Manager σ) (type : TypeName) (v : Visit) : Prop where
  reads : m.reading type v.record = .ok v.read
  due : v.replies.map (·.link) = m.due type v.record
  resolved : Reply.Resolved m v.replies v.read v.entity

/-- Nothing is resolved unless links are to be. -/
theorem Visited.quiet {m : Manager σ} {type : TypeName} {v : Visit} (h : m.Visited type v)
    (heager : m.config.resolveEager = false) : v.replies = [] ∧ v.entity = v.read := by
  have hdue : m.due type v.record = [] := by
    unfold Manager.due
    rw [heager]
  have hnone : v.replies = [] := List.map_eq_nil_iff.mp (h.due.trans hdue)
  exact ⟨hnone, h.resolved.kept (by simp [hnone])⟩

/-- The records that map were visited, in their order.  The replies are the store's answers to the
follow-ups, sent in that order too. -/
structure VisitedAll (m : Manager σ) (type : TypeName) (records : List Record) (state : σ)
    (visits : List Visit) : Prop where
  mapped : visits.map (·.record) = records.filter (m.maps type)
  visited : ∀ v ∈ visits, m.Visited type v
  answers : m.Answers state ((records.filter (m.maps type)).flatMap (m.due type))
    (visits.flatMap (·.replies))

/-- The events of visits: the follow-ups with the faults of their replies. -/
def visitEvents (m : Manager σ) (visits : List Visit) : List Event :=
  (visits.flatMap (·.replies)).flatMap (·.events m)

/-- An entity's links are resolved by its record's follow-ups. -/
theorem does_resolveEager {m : Manager σ} {type : TypeName} {record : Record} {e : Entity}
    (h : m.reading type record = .ok e) (s : Session σ) :
    ∃ replies, m.Answers s.store (m.due type record) replies ∧
      Does m (m.resolveEager type e) s (replies.flatMap (·.events m))
        (replies.foldl (Reply.put m) e) := by
  have hfollow := does_followUps h s
  obtain ⟨replies, hreplies, hrest⟩ :=
    does_followUpAll m (m.due type record) e (m.followUps type e s).2
  rw [hfollow.store] at hreplies
  exact ⟨replies, hreplies, hfollow.bind_at hrest⟩

/-- One record that maps is visited before the rest. -/
theorem VisitedAll.cons {m : Manager σ} {type : TypeName} {record : Record} {e : Entity}
    {rest : List Record} {state : σ} {replies : List Reply} {visits : List Visit}
    (h : m.reading type record = .ok e) (hreplies : m.Answers state (m.due type record) replies)
    (hvisits : m.VisitedAll type rest
      (m.store.after (requestsOf (replies.flatMap (·.events m))) state) visits) :
    m.VisitedAll type (record :: rest) state
      (⟨record, e, replies, replies.foldl (Reply.put m) e⟩ :: visits) where
  mapped := by rw [filter_maps_of_ok h, List.map_cons, hvisits.mapped]
  visited := List.forall_mem_cons.mpr
    ⟨⟨h, hreplies.links, Reply.resolved_foldl replies e⟩, hvisits.visited⟩
  answers := by
    rw [filter_maps_of_ok h]
    exact hreplies.append hvisits.answers

theorem visitEvents_cons (m : Manager σ) (v : Visit) (rest : List Visit) :
    m.visitEvents (v :: rest) = v.replies.flatMap (·.events m) ++ m.visitEvents rest := by
  rw [visitEvents, List.flatMap_cons, List.flatMap_append]
  rfl

/-- The entities read from records are resolved one after the other. -/
theorem does_resolveAll (m : Manager σ) (type : TypeName) (records : List Record) :
    ∀ s : Session σ, ∃ visits, m.VisitedAll type records s.store visits ∧
      Does m ((m.readings type records).mapM (m.resolveEager type)) s (m.visitEvents visits)
        (visits.map (·.entity)) := by
  induction records with
  | nil => exact fun s => ⟨[], ⟨rfl, by simp, ⟨rfl, rfl⟩⟩, .pure []⟩
  | cons record rest ih =>
      intro s
      cases h : m.reading type record with
      | error e =>
          obtain ⟨visits, hvisits, hrest⟩ := ih s
          rw [readings_cons_of_error h]
          refine ⟨visits, ⟨?_, hvisits.visited, ?_⟩, hrest⟩
          · rw [filter_maps_of_error h, hvisits.mapped]
          · rw [filter_maps_of_error h]
            exact hvisits.answers
      | ok e =>
          obtain ⟨replies, hreplies, hfirst⟩ := does_resolveEager h s
          obtain ⟨visits, hvisits, hrest⟩ := ih (m.resolveEager type e s).2
          rw [hfirst.store] at hvisits
          refine ⟨_, hvisits.cons h hreplies, ?_⟩
          rw [readings_cons_of_ok h, List.mapM_cons, visitEvents_cons]
          exact hfirst.bind_at (hrest.map _)

/-! ### A fetch -/

/-- The batch of a page with the entities made of its records. -/
def batchOf (page : Page) (entities : List Entity) : Batch where
  entities := entities
  more := page.more
  total := page.total
  limitExceeded := page.limitExceeded
  page := page.page

theorem does_fetch_error {m : Manager σ} {q : PageQuery} {s : Session σ} {e : StoreError}
    (h : (m.store.answer (.retrieve q) s.store).1 = .error e) (type : TypeName) :
    Does m (m.fetch type q) s [.sent (.retrieve q), .reported (.store e)] { page := q.page } := by
  refine (Does.send (.retrieve q)).bind fun s' _ => ?_
  rw [h]
  exact (Does.report (.store e)).bind fun _ _ => .pure _

theorem does_fetch_ok {m : Manager σ} {q : PageQuery} {s : Session σ} {page : Page}
    (h : (m.store.answer (.retrieve q) s.store).1 = .ok page) (type : TypeName) :
    ∃ visits, m.VisitedAll type page.records (m.store.after [.retrieve q] s.store) visits ∧
      Does m (m.fetch type q) s
        (.sent (.retrieve q) ::
          ((m.failures type page.records).map .reported ++ m.visitEvents visits))
        (batchOf page (visits.map (·.entity))) := by
  have hsent := Does.send (m := m) (s := s) (.retrieve q)
  rw [h] at hsent
  have hread := does_readEach m type page.records (m.send (.retrieve q) s).2
  obtain ⟨visits, hvisits, hresolve⟩ := does_resolveAll m type page.records
    (m.readEach type page.records (m.send (.retrieve q) s).2).2
  rw [hread.store, requestsOf_reported, hsent.store] at hvisits
  exact ⟨visits, hvisits, hsent.bind_at (hread.bind_at (hresolve.map _))⟩

/-- **A fetch degrades record by record.**  A request that fails is one fault and an empty page.
Otherwise the records that map become the entities, each the one read from it but for the slots that
the replies to its follow-ups filled; first come the faults of the records that do not map, then for
each entity its follow-ups with the faults of their replies, and nothing else happens.  Unless links
are to be resolved there are no follow-ups. -/
theorem fetch_degrades (m : Manager σ) (type : TypeName) (q : PageQuery) (s : Session σ) :
    match (m.store.answer (.retrieve q) s.store).1 with
    | .error e =>
      Does m (m.fetch type q) s [.sent (.retrieve q), .reported (.store e)] { page := q.page }
    | .ok page =>
      ∃ visits, m.VisitedAll type page.records (m.store.after [.retrieve q] s.store) visits ∧
        (m.config.resolveEager = false → ∀ v ∈ visits, v.replies = [] ∧ v.entity = v.read) ∧
        Does m (m.fetch type q) s
          (.sent (.retrieve q) ::
            ((m.failures type page.records).map .reported ++ m.visitEvents visits))
          (batchOf page (visits.map (·.entity))) := by
  cases hanswer : (m.store.answer (.retrieve q) s.store).1 with
  | error e => exact does_fetch_error hanswer type
  | ok page =>
      obtain ⟨visits, hvisits, hdoes⟩ := does_fetch_ok hanswer type
      exact ⟨visits, hvisits, fun heager v hv => (hvisits.visited v hv).quiet heager, hdoes⟩

/-! ### The records and the requests of a fetch -/

/-- The records that map among those of an answer. -/
def mappedOf (m : Manager σ) (type : TypeName) : Except StoreError Page → List Record
  | .ok page => page.records.filter (m.maps type)
  | .error _ => []

/-- An entity is what a fetch makes of a record: the one read from it, with the linked entities that
its follow-ups brought. -/
def StandsFor (m : Manager σ) (type : TypeName) (record : Record) (e : Entity) : Prop :=
  ∃ v : Visit, m.Visited type v ∧ v.record = record ∧ v.entity = e

/-- The entities of a fetch stand for the records that map, one for one. -/
theorem fetch_standsFor (m : Manager σ) (type : TypeName) (q : PageQuery) (s : Session σ) :
    List.Forall₂ (m.StandsFor type) (m.mappedOf type (m.store.answer (.retrieve q) s.store).1)
      (m.fetch type q s).1.entities := by
  cases h : (m.store.answer (.retrieve q) s.store).1 with
  | error e =>
      rw [(does_fetch_error h type).value]
      exact .nil
  | ok page =>
      obtain ⟨visits, hvisits, hdoes⟩ := does_fetch_ok h type
      rw [hdoes.value]
      show List.Forall₂ _ (page.records.filter (m.maps type)) (visits.map (·.entity))
      rw [← hvisits.mapped, List.forall₂_map_left_iff, List.forall₂_map_right_iff,
        List.forall₂_same]
      exact fun v hv => ⟨v, hvisits.visited v hv, rfl, rfl⟩

/-- A fetch sends its page query and then the follow-ups of the page. -/
theorem requests_fetch (m : Manager σ) (type : TypeName) (q : PageQuery) (s : Session σ) :
    (m.fetch type q s).2.requests = s.requests ++ .retrieve q :: m.requestsFor
      ((m.mappedOf type (m.store.answer (.retrieve q) s.store).1).flatMap (m.due type)) := by
  cases h : (m.store.answer (.retrieve q) s.store).1 with
  | error e => exact (does_fetch_error h type).requests
  | ok page =>
      obtain ⟨visits, hvisits, hdoes⟩ := does_fetch_ok h type
      rw [hdoes.requests, requestsOf_sent, requestsOf_append, requestsOf_reported, visitEvents,
        requestsOf_replies, hvisits.answers.links]
      rfl

end Manager

end TypedRecords
