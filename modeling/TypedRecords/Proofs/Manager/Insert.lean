/-
An insertion is all or nothing.

An insertion ends in one of four ways, and which one it is can be told from the settings, from what
writing the entity gives and from the store's answer.  Three of them leave the entity as it was.  In
the fourth the entity takes over the record that was sent, under the identity that the store gave.

What is written for an entity of a mapped type does not hang on the record it holds, nor on its own
name, and on its identity only in the record's; a dynamic entity is written as the record it holds.
So an entity that was stored is written as the very record it took over, and the next write is an
update of that record.
-/
import TypedRecords.Proofs.Manager.ReadOnly
import TypedRecords.Proofs.Mapping.WriteBack

namespace TypedRecords

/-- The entity that the store has a record of. -/
def Entity.storedAs (e : Entity) (record : Record) : Entity :=
  { e with header := { e.header with
      id := record.id, entity := record.entity, record := some record } }

namespace Mapping

variable {s : Schema} {converters : Converters} {e : Entity} {record record' stored : Record}

/-! ### What a stored entity is written as -/

/-- The lifecycle goes out under the entity's identity, and is otherwise the same under any. -/
theorem basis_storedAs (s : Schema) (e : Entity) (stored : Record) :
    basis s (e.storedAs stored).header = { basis s e.header with id := stored.id } := by
  unfold basis Entity.storedAs
  dsimp only
  by_cases hunknown : e.header.state = .unknown
  · rw [if_pos hunknown, if_pos hunknown]
    cases e.header.status <;> rfl
  · rw [if_neg hunknown, if_neg hunknown]
    cases e.header.status <;> rfl

/-- A member goes out the same for a stored entity. -/
theorem writeBack_storedAs {f : Field} (h : writeBack s converters e record f = .ok record')
    (stored : Record) :
    writeBack s converters (e.storedAs stored) { record with id := stored.id } f
      = .ok { record' with id := stored.id } := by
  have hwritable : isWritable (e.storedAs stored).header f = isWritable e.header f := rfl
  have hread : (e.storedAs stored).read f = e.read f := rfl
  unfold writeBack at h ⊢
  rw [hwritable, hread]
  by_cases hskip : (!isWritable e.header f || (e.read f).isNull) = true
  · rw [if_pos hskip] at h ⊢
    cases h
    rfl
  · rw [if_neg hskip] at h ⊢
    obtain ⟨out, hout, h⟩ := bind_eq_ok.mp h
    cases h
    exact bind_eq_ok.mpr ⟨out, hout, rfl⟩

theorem writeAll_storedAs (stored : Record) : ∀ {fields : List Field} {record : Record},
    fields.foldlM (writeBack s converters e) record = .ok record' →
      fields.foldlM (writeBack s converters (e.storedAs stored)) { record with id := stored.id }
        = .ok { record' with id := stored.id } := by
  intro fields
  induction fields with
  | nil =>
      intro record h
      cases h
      rfl
  | cons f rest ih =>
      intro record h
      obtain ⟨next, hf, hrest⟩ := foldlM_cons_eq_ok.mp h
      exact foldlM_cons_eq_ok.mpr ⟨_, writeBack_storedAs hf stored, ih hrest⟩

/-- **A stored entity is written as the record it was stored as.** -/
theorem toRecord_storedAs {catalog : Catalog} {type : TypeName}
    (h : e.toRecord catalog converters type = .ok record) (id : Identity) :
    (e.storedAs { record with id }).toRecord catalog converters type
      = .ok { record with id } := by
  unfold Entity.toRecord at h ⊢
  by_cases hdynamic : type = dynamicType
  · rw [if_pos hdynamic]
    rfl
  · rw [if_neg hdynamic] at h ⊢
    cases hs : catalog.schema? type with
    | none =>
        rw [hs] at h
        cases h
    | some s =>
        rw [hs] at h
        dsimp only at h ⊢
        rw [basis_storedAs]
        exact writeAll_storedAs { record with id } h

end Mapping

namespace Manager

variable {σ α : Type} {m : Manager σ} {type : TypeName} {e : Entity} {s : Session σ}
  {record : Record}

/-! ### Writing and sending -/

theorem does_outgoing_error {error : MappingError}
    (h : e.toRecord m.catalog m.converters type = .error error) (s : Session σ) :
    Does m (m.outgoing type e) s [.reported (.mapping error)] none := by
  refine (Does.ask _).bind fun s' _ => ?_
  rw [h]
  exact (Does.report (.mapping error)).bind fun _ _ => .pure none

theorem does_outgoing_ok (h : e.toRecord m.catalog m.converters type = .ok record)
    (s : Session σ) :
    Does m (m.outgoing type e) s [] (some (record, m.catalog.verbatim type)) := by
  refine (Does.ask _).bind fun s' _ => ?_
  rw [h]
  exact (Does.ask [type]).bind fun _ _ => .pure _

/-- A manager that writes runs the write. -/
theorem does_writing (hm : m.config.readOnly = false) (operation : String) {run : Run σ α}
    {events : List Event} {a : α} (h : Does m run s events a) :
    Does m (m.writing operation run) s events (.ok a) := by
  unfold writing
  rw [if_neg (by simp [hm])]
  exact h.map Except.ok

/-- A change is one request, and a fault too when the store fails. -/
theorem does_change (m : Manager σ) (r : Request) (toBool : r.Answer → Bool) (s : Session σ) :
    ∃ events answer, Does m (m.change r toBool) s events answer ∧ requestsOf events = [r] := by
  cases hanswer : (m.store.answer r s.store).1 with
  | ok a =>
      have hsend := Does.send (m := m) (s := s) r
      rw [hanswer] at hsend
      exact ⟨_, _, hsend.bind fun _ _ => .pure (toBool a), rfl⟩
  | error error =>
      have hsend := Does.send (m := m) (s := s) r
      rw [hanswer] at hsend
      exact ⟨_, _, hsend.bind fun _ _ => (Does.report (.store error)).bind fun _ _ => .pure false,
        rfl⟩

/-! ### Insertions -/

theorem does_insert (hm : m.config.readOnly = false) {events : List Event} {done : Bool}
    {after : Entity} (h : Does m (m.insertion type e) s events (done, after)) :
    Does m (m.insert type e) s events (.ok done, after) := by
  rw [← List.append_nil events]
  exact (does_writing hm "insert" h).bind fun _ _ => .pure (Except.ok done, after)

theorem does_insertion_error {error : MappingError}
    (h : e.toRecord m.catalog m.converters type = .error error) (s : Session σ) :
    Does m (m.insertion type e) s [.reported (.mapping error)] (false, e) :=
  (does_outgoing_error h s).bind fun _ _ => .pure (false, e)

/-- A store that fails leaves the entity as it was. -/
theorem does_insertion_failed (h : e.toRecord m.catalog m.converters type = .ok record)
    {error : StoreError}
    (hanswer : (m.store.answer (.create record (m.catalog.verbatim type)) s.store).1
      = .error error) :
    Does m (m.insertion type e) s
      [.sent (.create record (m.catalog.verbatim type)), .reported (.store error)] (false, e) := by
  refine (does_outgoing_ok h s).bind fun s' hs' => ?_
  refine (Does.send (.create record (m.catalog.verbatim type))).bind fun _ _ => ?_
  have hstore : s'.store = s.store := hs'
  rw [hstore, hanswer]
  exact (Does.report (.store error)).bind fun _ _ => .pure (false, e)

/-- A store that gives an identity has the record under it. -/
theorem does_insertion_created (h : e.toRecord m.catalog m.converters type = .ok record)
    {id : Identity}
    (hanswer : (m.store.answer (.create record (m.catalog.verbatim type)) s.store).1 = .ok id) :
    Does m (m.insertion type e) s [.sent (.create record (m.catalog.verbatim type))]
      (true, e.storedAs { record with id }) := by
  refine (does_outgoing_ok h s).bind fun s' hs' => ?_
  refine (Does.send (.create record (m.catalog.verbatim type))).bind fun _ _ => ?_
  have hstore : s'.store = s.store := hs'
  rw [hstore, hanswer]
  exact .pure _

/-- An entity with an identity is written back by one update of its record. -/
theorem does_insertOrUpdate (hm : m.config.readOnly = false)
    (h : e.toRecord m.catalog m.converters type = .ok record) (hid : e.header.id.isNil = false)
    (s : Session σ) :
    ∃ events answer, Does m (m.insertOrUpdate type e) s events (answer, e) ∧
      requestsOf events = [.update record (m.catalog.verbatim type)] := by
  obtain ⟨events, answer, hchange, hrequests⟩ :=
    does_change m (.update record (m.catalog.verbatim type)) id (m.outgoing type e s).2
  refine ⟨events, .ok answer, ?_, hrequests⟩
  have hrun : Does m (m.update type e) s ([] ++ events) (.ok answer) :=
    does_writing hm "update" ((does_outgoing_ok h s).bind_at hchange)
  unfold insertOrUpdate
  rw [if_neg (by simp [hid])]
  exact hrun.map (·, e)

/-- An entity is the record that it holds: it is written as that record, and writing it once more
updates the record and creates none. -/
structure Stored (m : Manager σ) (type : TypeName) (e : Entity) (record : Record) : Prop where
  held : e.header.record = some record
  written : e.toRecord m.catalog m.converters type = .ok record
  updated : record.id.isNil = false → ∀ s : Session σ, ∃ events answer,
    Does m (m.insertOrUpdate type e) s events (answer, e) ∧
      requestsOf events = [.update record (m.catalog.verbatim type)]

/--
**An insertion is all or nothing.**

A manager that only reads refuses it.  An entity that cannot be written is a mapping fault and no
request; a store that fails is a store fault; either way the answer is "no" and the entity is as it
was.  When the store gives an identity, nothing of the entity changes but its identity, its name and
the record it holds, which is the one that was sent under the new identity; the entity is written as
that record from then on.
-/
theorem insert_all_or_nothing (m : Manager σ) (type : TypeName) (e : Entity) (s : Session σ) :
    match m.config.readOnly, e.toRecord m.catalog m.converters type with
    | true, _ => Does m (m.insert type e) s [] (.error (.policyViolation "insert"), e)
    | false, .error error =>
      Does m (m.insert type e) s [.reported (.mapping error)] (.ok false, e)
    | false, .ok record =>
      match (m.store.answer (.create record (m.catalog.verbatim type)) s.store).1 with
      | .error error =>
        Does m (m.insert type e) s
          [.sent (.create record (m.catalog.verbatim type)), .reported (.store error)]
          (.ok false, e)
      | .ok id =>
        let stored : Record := { record with id }
        let after : Entity :=
          { e with header := { e.header with id, entity := record.entity, record := some stored } }
        Does m (m.insert type e) s [.sent (.create record (m.catalog.verbatim type))]
          (.ok true, after) ∧ Stored m type after stored := by
  cases hm : m.config.readOnly with
  | true =>
      have hrefused : m.insert type e = pure (.error (.policyViolation "insert"), e) :=
        write_of_readOnly hm (.insert type e)
      rw [hrefused]
      exact .pure _
  | false =>
      cases hwrite : e.toRecord m.catalog m.converters type with
      | error error => exact does_insert hm (does_insertion_error hwrite s)
      | ok record =>
          dsimp only
          cases hanswer :
              (m.store.answer (.create record (m.catalog.verbatim type)) s.store).1 with
          | error error => exact does_insert hm (does_insertion_failed hwrite hanswer)
          | ok id =>
              have hwritten := Mapping.toRecord_storedAs hwrite id
              exact ⟨does_insert hm (does_insertion_created hwrite hanswer), rfl, hwritten,
                fun hid => does_insertOrUpdate hm hwritten hid⟩

end Manager

end TypedRecords
