/-
Casting reads again.

A cast reads the record that an entity holds as another type.  An entity that was read holds its
record, or nothing where the record is blank, and a blank record reads as none does.  So what the
entity was read as, with which schemas and converters, plays no part: casting entities is casting
their records, in every session.

Casts go record by record and stop at the first that does not map, after the follow-ups of those
before it.  Whether the entities are collected on the way back or added to a list in turn makes no
difference.
-/
import TypedRecords.Proofs.Manager.Fetch

namespace TypedRecords

/-! ### What an entity holds -/

/-- An entity holds a record, or nothing where the record is blank. -/
def Entity.Holds (e : Entity) (record : Record) : Prop :=
  e.header.record = if record.isBlank then none else some record

/-- What was read from a record holds it. -/
theorem Entity.holds_of_ofRecord {catalog : Catalog} {converters : Converters} {type : TypeName}
    {record : Record} {e : Entity} (h : Entity.ofRecord catalog converters type record = .ok e) :
    e.Holds record := by
  unfold Holds
  cases hblank : record.isBlank with
  | true =>
      cases (Mapping.ofRecord_blank hblank).symm.trans h
      exact catalog.fresh_record type
  | false =>
      cases hs : catalog.schema? type with
      | some s => exact Mapping.record_of_ofRecord hs hblank h
      | none =>
          cases (Mapping.readWith_unmapped hs hblank).symm.trans h
          rfl

namespace Manager

variable {σ : Type} {m : Manager σ} {type : TypeName} {record : Record}

/-! ### One cast -/

/-- Reading a blank record asks for no schema. -/
theorem asks_of_isBlank (catalog : Catalog) (converters : Converters) (type : TypeName)
    (h : record.isBlank = true) : Mapping.asks catalog converters type record = [] := by
  show Mapping.asksWithin catalog converters (Mapping.depthLimit - 1 + 1) type record = []
  rw [Mapping.asksWithin, if_pos h]

/-- A blank record is cast as none is. -/
theorem cast_of_isBlank (m : Manager σ) (type : TypeName) (h : record.isBlank = true) :
    m.cast type (some record) = m.cast type none := by
  have hread : m.ofRecord type record = pure (.ok (m.catalog.fresh type)) := by
    unfold ofRecord
    rw [asks_of_isBlank _ _ _ h, Mapping.ofRecord_blank h]
    rfl
  simp only [cast, hread]

/-- A cast sees the record that an entity holds and nothing else of it. -/
theorem cast_of_holds {e : Entity} (h : e.Holds record) (m : Manager σ) (type : TypeName) :
    m.cast type e.header.record = m.cast type (some record) := by
  rw [h]
  cases hblank : record.isBlank with
  | true => exact (cast_of_isBlank m type hblank).symm
  | false => rfl

theorem does_cast_error {error : MappingError} (h : m.reading type record = .error error)
    (s : Session σ) : Does m (m.cast type (some record)) s [] (.error error) := by
  refine (Does.ofRecord type record).bind fun s' _ => ?_
  rw [h]
  exact .pure _

/-- A record that maps is cast to the entity read from it, with what its follow-ups bring. -/
theorem does_cast_ok {e : Entity} (h : m.reading type record = .ok e) (s : Session σ) :
    ∃ replies, m.Answers s.store (m.due type record) replies ∧
      Does m (m.cast type (some record)) s (replies.flatMap (·.events m))
        (.ok (replies.foldl (Reply.put m) e)) := by
  have hread := Does.ofRecord (m := m) (s := s) type record
  obtain ⟨replies, hreplies, hresolve⟩ := does_resolveEager h (m.ofRecord type record s).2
  rw [hread.store] at hreplies
  refine ⟨replies, hreplies, hread.bind_at ?_⟩
  rw [h]
  exact hresolve.map _

/-! ### Casts of many -/

/-- Casting entities is casting the records that they hold. -/
theorem castAll_of_holds {entities : List Entity} {records : List Record}
    (h : List.Forall₂ Entity.Holds entities records) (m : Manager σ) (type : TypeName) :
    m.castAll type entities = m.castAll type (records.map .around) := by
  induction h with
  | nil => rfl
  | cons hfirst _ ih =>
      rw [List.map_cons, castAll, castAll, ih, cast_of_holds hfirst]
      rfl

/-- Casting goes on with the rest when the first entity's record maps. -/
theorem castAll_cons (m : Manager σ) (type : TypeName) (e : Entity) (rest : List Entity) :
    m.castAll type (e :: rest) = m.cast type e.header.record >>= fun
      | .error error => pure (.error error)
      | .ok first => m.castAll type rest >>= fun others => pure (others.map (first :: ·)) := by
  rw [castAll]
  congr 1
  funext first
  cases first with
  | error error => rfl
  | ok first =>
      show (m.castAll type rest >>= _) = m.castAll type rest >>= _
      congr 1
      funext others
      cases others <;> rfl

/-- A loop that adds to a list puts what is collected after the list. -/
theorem castOnto_eq (m : Manager σ) (type : TypeName) (entities : List Entity) :
    ∀ cast, m.castOnto type cast entities
      = m.castAll type entities >>= fun others => pure (others.map (cast ++ ·)) := by
  induction entities with
  | nil =>
      intro cast
      rw [castOnto, castAll, pure_bind, Except.map, List.append_nil]
  | cons e rest ih =>
      intro cast
      rw [castOnto, castAll_cons, bind_assoc]
      congr 1
      funext first
      cases first with
      | error error => rfl
      | ok first =>
          show m.castOnto type (cast ++ [first]) rest = _
          rw [ih, bind_assoc]
          congr 1
          funext others
          cases others with
          | error error => rfl
          | ok others =>
              rw [pure_bind, Except.map, Except.map, Except.map, List.append_assoc,
                List.singleton_append]

/-- **A loop that adds each cast in turn does what collecting them does.** -/
theorem castInTurn_eq (m : Manager σ) (type : TypeName) (entities : List Entity) :
    m.castInTurn type entities = m.castAll type entities := by
  have hnil : ∀ others : Except MappingError (List Entity), others.map ([] ++ ·) = others := by
    intro others
    cases others <;> rfl
  unfold castInTurn
  simp only [castOnto_eq, hnil, bind_pure]

/-- How casts of records end: all of them were visited, or those before the first that does not map. -/
inductive Cast (m : Manager σ) (type : TypeName) (state : σ) :
    List Record → List Visit → Except MappingError (List Entity) → Prop
  | all {records : List Record} {visits : List Visit}
      (hmaps : ∀ r ∈ records, m.maps type r = true)
      (hvisits : m.VisitedAll type records state visits) :
      Cast m type state records visits (.ok (visits.map (·.entity)))
  | stopped {before after : List Record} {record : Record} {visits : List Visit}
      {error : MappingError} (hmaps : ∀ r ∈ before, m.maps type r = true)
      (hvisits : m.VisitedAll type before state visits)
      (hfails : m.reading type record = .error error) :
      Cast m type state (before ++ record :: after) visits (.error error)

/-- One record that maps is visited before the rest. -/
theorem Cast.cons {e : Entity} {rest : List Record} {state : σ} {replies : List Reply}
    {visits : List Visit} {result : Except MappingError (List Entity)}
    (h : m.reading type record = .ok e) (hreplies : m.Answers state (m.due type record) replies)
    (hrest : m.Cast type (m.store.after (requestsOf (replies.flatMap (·.events m))) state) rest
      visits result) :
    m.Cast type state (record :: rest)
      (⟨record, e, replies, replies.foldl (Reply.put m) e⟩ :: visits)
      (result.map (replies.foldl (Reply.put m) e :: ·)) := by
  have hmaps : m.maps type record = true := by simp [maps, h, Except.isOk, Except.toBool]
  cases hrest with
  | all hrest hvisits =>
      exact .all (List.forall_mem_cons.mpr ⟨hmaps, hrest⟩) (hvisits.cons h hreplies)
  | @stopped before after record' _ error hbefore hvisits hfails =>
      show m.Cast type state ((record :: before) ++ record' :: after) _ _
      exact .stopped (List.forall_mem_cons.mpr ⟨hmaps, hbefore⟩) (hvisits.cons h hreplies) hfails

/-- **Casts go record by record up to the first that does not map**, and nothing happens but the
follow-ups of those before it. -/
theorem does_castAll (m : Manager σ) (type : TypeName) (records : List Record) :
    ∀ s : Session σ, ∃ visits result, m.Cast type s.store records visits result ∧
      Does m (m.castAll type (records.map .around)) s (m.visitEvents visits) result := by
  induction records with
  | nil => exact fun s => ⟨[], _, .all (by simp) ⟨rfl, by simp, ⟨rfl, rfl⟩⟩, .pure _⟩
  | cons record rest ih =>
      intro s
      cases h : m.reading type record with
      | error error =>
          have hnone : m.VisitedAll type [] s.store [] := ⟨rfl, by simp, ⟨rfl, rfl⟩⟩
          have hstopped : m.Cast type s.store ([] ++ record :: rest) [] (.error error) :=
            .stopped (by simp) hnone h
          refine ⟨[], .error error, hstopped, ?_⟩
          exact (does_cast_error h s).bind fun s' _ => .pure _
      | ok e =>
          obtain ⟨replies, hreplies, hfirst⟩ := does_cast_ok h s
          obtain ⟨visits, result, hcast, hrest⟩ := ih (m.cast type (some record) s).2
          rw [hfirst.store] at hcast
          refine ⟨_, _, hcast.cons h hreplies, ?_⟩
          rw [visitEvents_cons, List.map_cons, castAll_cons]
          exact hfirst.bind_at (hrest.map _)

/-- The entities that casts give hold the records. -/
theorem Cast.holds {state : σ} {records : List Record} {visits : List Visit}
    {entities : List Entity} (h : m.Cast type state records visits (.ok entities)) :
    List.Forall₂ Entity.Holds entities records := by
  cases h with
  | all hmaps hvisits =>
      have hrecords : visits.map (·.record) = records := by
        rw [hvisits.mapped, List.filter_eq_self]
        exact hmaps
      rw [← hrecords, List.forall₂_map_left_iff, List.forall₂_map_right_iff, List.forall₂_same]
      intro v hv
      have hvisited := hvisits.visited v hv
      have hread : v.read.Holds v.record := Entity.holds_of_ofRecord hvisited.reads
      unfold Entity.Holds
      rw [hvisited.resolved.header]
      exact hread

/-- **What was cast before can be cast as if it had not been.** -/
theorem castAll_of_castAll {via : TypeName} {records : List Record} {entities : List Entity}
    {s : Session σ} (h : (m.castAll via (records.map .around) s).1 = .ok entities)
    (other : Manager σ) (type : TypeName) :
    other.castAll type entities = other.castAll type (records.map .around) := by
  obtain ⟨visits, result, hcast, hdoes⟩ := does_castAll m via records s
  cases hdoes.value.symm.trans h
  exact castAll_of_holds hcast.holds other type

/-- **A cast depends on the records only.**

However entities were read from records, casting them is casting the records: in every session it
gives the same, sends the same requests and reports the same faults, and so it does in a loop that
adds each cast in turn.  The casts come in the order of the records, and the first record that does
not map ends them with its error, after the follow-ups of the records before it. -/
theorem castAll_sees_records (m : Manager σ) (type : TypeName) {catalog : Catalog}
    {converters : Converters} {via : TypeName} {records : List Record} {entities : List Entity}
    (hread : List.Forall₂ (fun record e => Entity.ofRecord catalog converters via record = .ok e)
      records entities) :
    m.castAll type entities = m.castAll type (records.map .around) ∧
      m.castInTurn type entities = m.castAll type entities ∧
      ∀ s : Session σ, ∃ visits result, m.Cast type s.store records visits result ∧
        Does m (m.castAll type entities) s (m.visitEvents visits) result := by
  have hholds : List.Forall₂ Entity.Holds entities records :=
    hread.flip.imp fun _ _ h => Entity.holds_of_ofRecord h
  have hrun := castAll_of_holds hholds m type
  refine ⟨hrun, castInTurn_eq m type entities, ?_⟩
  intro s
  rw [hrun]
  exact does_castAll m type records s

/-! ### Workers, who are persons -/

/-- A catalog of persons, and of workers, who are the same records with their managers. -/
def roster : Catalog where
  describe
    | "Person" =>
        { names := ["person"]
          declarations := [.scalar ⟨"name", .plain .string⟩ "name" "fullname"] }
    | "Worker" =>
        { names := ["person"]
          declarations := [.link "manager" "Person" "manager" "managerid" [], .eager] }
    | _ => {}

/-- A record with a lookup to a manager. -/
def managed : Record :=
  ({ entity := "person", id := ⟨22, by decide⟩ } : Record).set "managerid"
    (.reference ⟨"person", ⟨23, by decide⟩⟩)

/-- A blank record, one with a manager, one whose manager is no lookup, and one with a manager. -/
def applicants : List Record :=
  [{ entity := "", id := .nil }, managed,
    ({ entity := "person", id := ⟨24, by decide⟩ } : Record).set "managerid" (.string "Ann"), managed]

/-- A manager of persons whose store knows nobody. -/
def rosterManager : Manager Unit where
  catalog := roster
  store.answer
    | .retrieve _, state => (.ok {}, state)
    | .create .., state => (.ok .nil, state)
    | .update .., state => (.ok true, state)
    | .setState .., state => (.ok true, state)
    | .associate .., state => (.ok true, state)

/-- Of the four that were read as persons the third is no worker, and one follow-up was sent by then. -/
theorem castAll_sees_records_applicants :
    ∃ persons, List.Forall₂
        (fun record e => Entity.ofRecord roster .empty "Person" record = .ok e) applicants persons ∧
      rosterManager.castAll "Worker" persons
        = rosterManager.castAll "Worker" (applicants.map .around) ∧
      rosterManager.castInTurn "Worker" persons = rosterManager.castAll "Worker" persons ∧
      (rosterManager.castAll "Worker" persons (.start () 1)).2.requests.length = 1 ∧
      ∃ visits, rosterManager.Cast "Worker" () applicants visits
        (.error ⟨"person", "managerid", .notALookup .string⟩) := by
  have hread : ∃ persons, List.Forall₂
      (fun record e => Entity.ofRecord roster .empty "Person" record = .ok e) applicants persons :=
    ⟨_, .cons rfl (.cons rfl (.cons rfl (.cons rfl .nil)))⟩
  obtain ⟨persons, hread⟩ := hread
  obtain ⟨hrun, hturn, hdoes⟩ := castAll_sees_records rosterManager "Worker" hread
  obtain ⟨visits, result, hcast, hdoes⟩ := hdoes (.start () 1)
  have hvalue := hdoes.value
  rw [hrun] at hvalue
  subst hvalue
  exact ⟨persons, hread, hrun, hturn, by rw [hrun]; rfl, visits, hcast⟩

end Manager

end TypedRecords
