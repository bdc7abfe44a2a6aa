/-
What writing an entity back sends.

Writing back starts from the lifecycle and sets one attribute for each writable member that is not
null.  No attribute is mapped twice, so no field's value is overwritten by a later field's: the
finished record has exactly the values that its fields sent and, under every other name, what the
lifecycle put there.  `Sent` is that description, and everything about written records follows from
it without another look at the fold.
-/
import TypedRecords.Mapping
import TypedRecords.Proofs.Schema
import TypedRecords.Proofs.Scalar.Member

namespace TypedRecords

namespace Mapping

variable {s : Schema} {converters : Converters} {e : Entity} {record record' : Record} {f : Field}

/-- A field that an entity sends: it is writable and its member is not null. -/
def Sends (e : Entity) (f : Field) : Prop := isWritable e.header f = true ∧ e.read f ≠ .null

/-! ### One field -/

/-- Without converters a member goes out as its field sends it. -/
theorem outgoing_empty (f : Field) (value : Scalar) :
    outgoing .empty f value = value.sent f.isChoice := by
  unfold Scalar.sent
  cases hchoice : f.isChoice with
  | true => simp [outgoing, hchoice, bind, Except.bind]
  | false => simp [outgoing, hchoice, bind, Except.bind]

theorem writeBack_of_sends (hsends : Sends e f)
    (h : writeBack s converters e record f = .ok record') :
    ∃ out, outgoing converters f (e.read f) = .ok out ∧
      record' = record.set f.wire out.toValue := by
  obtain ⟨hwritable, hnull⟩ := hsends
  have hskip : (!isWritable e.header f || (e.read f).isNull) = false := by
    simp [hwritable, Scalar.isNull, hnull]
  simp only [writeBack, hskip] at h
  obtain ⟨out, hout, h⟩ := bind_eq_ok.mp h
  cases h
  exact ⟨out, mapError_eq_ok.mp hout, rfl⟩

theorem writeBack_of_not_sends (hsends : ¬Sends e f)
    (h : writeBack s converters e record f = .ok record') : record' = record := by
  have hskip : (!isWritable e.header f || (e.read f).isNull) = true := by
    by_cases hwritable : isWritable e.header f = true
    · have hnull : e.read f = .null := not_not.mp fun hne => hsends ⟨hwritable, hne⟩
      simp [Scalar.isNull, hnull]
    · simp [hwritable]
  simp only [writeBack, hskip] at h
  cases h
  rfl

/-- A field changes neither the identity nor the entity of the record. -/
theorem writeBack_keeps (h : writeBack s converters e record f = .ok record') :
    record'.id = record.id ∧ record'.entity = record.entity := by
  by_cases hsends : Sends e f
  · obtain ⟨out, -, rfl⟩ := writeBack_of_sends hsends h
    exact ⟨rfl, rfl⟩
  · rw [writeBack_of_not_sends hsends h]
    exact ⟨rfl, rfl⟩

/-- A field sets no attribute but its own. -/
theorem writeBack_get?_of_ne {name : String} (hname : Sends e f → name ≠ f.wire)
    (h : writeBack s converters e record f = .ok record') :
    record'.get? name = record.get? name := by
  by_cases hsends : Sends e f
  · obtain ⟨out, -, rfl⟩ := writeBack_of_sends hsends h
    rw [Record.get?_set, if_neg (hname hsends)]
  · rw [writeBack_of_not_sends hsends h]

/-! ### All fields -/

theorem writeAll_keeps {fields : List Field}
    (h : fields.foldlM (writeBack s converters e) record = .ok record') :
    record'.id = record.id ∧ record'.entity = record.entity := by
  refine foldlM_keeps (P := fun r => r.id = record.id ∧ r.entity = record.entity) ?_ ⟨rfl, rfl⟩ h
  rintro g - r r' ⟨hid, hentity⟩ hwrite
  obtain ⟨hid', hentity'⟩ := writeBack_keeps hwrite
  exact ⟨hid'.trans hid, hentity'.trans hentity⟩

theorem writeAll_get?_of_ne {fields : List Field} {name : String}
    (hname : ∀ g ∈ fields, Sends e g → name ≠ g.wire)
    (h : fields.foldlM (writeBack s converters e) record = .ok record') :
    record'.get? name = record.get? name := by
  refine foldlM_keeps (P := fun r => r.get? name = record.get? name) ?_ rfl h
  intro g hg r r' hr hwrite
  exact (writeBack_get?_of_ne (hname g hg) hwrite).trans hr

theorem writeAll_get?_of_sends {before after : List Field}
    (hafter : ∀ g ∈ after, g.wire ≠ f.wire) (hsends : Sends e f)
    (h : (before ++ f :: after).foldlM (writeBack s converters e) record = .ok record') :
    ∃ out, outgoing converters f (e.read f) = .ok out ∧ record'.get? f.wire = some out.toValue := by
  obtain ⟨r, -, h⟩ := foldlM_append_eq_ok.mp h
  obtain ⟨r', hf, h⟩ := foldlM_cons_eq_ok.mp h
  obtain ⟨out, hout, rfl⟩ := writeBack_of_sends hsends hf
  refine ⟨out, hout, ?_⟩
  rw [writeAll_get?_of_ne (fun g hg _ => (hafter g hg).symm) h, Record.get?_set, if_pos rfl]

/-! ### The lifecycle -/

theorem basis_keeps (s : Schema) (h : Header) :
    (basis s h).id = h.id ∧ (basis s h).entity = s.entity := by
  unfold basis
  cases h.status with
  | none => split <;> exact ⟨rfl, rfl⟩
  | some status => split <;> exact ⟨rfl, rfl⟩

/-- What a name that the status is not written to has in a record with the lifecycle only. -/
theorem basis_get?_of_no_status {name : String} {h : Header}
    (hname : h.status ≠ none → name ≠ s.statusField) :
    (basis s h).get? name
      = if h.state ≠ .unknown ∧ name = s.stateField then some (.optionSet h.state.code)
        else none := by
  have hstate : (if h.state = .unknown then ({ entity := s.entity, id := h.id } : Record)
      else ({ entity := s.entity, id := h.id } : Record).set s.stateField
        (.optionSet h.state.code)).get? name
      = if h.state ≠ .unknown ∧ name = s.stateField then some (.optionSet h.state.code)
        else none := by
    by_cases hunknown : h.state = .unknown
    · rw [if_pos hunknown, if_neg fun hand => hand.1 hunknown]
      rfl
    · rw [if_neg hunknown, Record.get?_set]
      by_cases hfield : name = s.stateField
      · rw [if_pos hfield, if_pos ⟨hunknown, hfield⟩]
      · rw [if_neg hfield, if_neg fun hand => hfield hand.2]
        rfl
  unfold basis
  cases hstatus : h.status with
  | none => exact hstate
  | some status =>
      have hne : name ≠ s.statusField := hname (by simp [hstatus])
      exact (Record.get?_set ..).trans ((if_neg hne).trans hstate)

/-- What a name other than the status attribute's has in a record with the lifecycle only. -/
theorem basis_get?_of_ne_status {name : String} (hname : name ≠ s.statusField) (h : Header) :
    (basis s h).get? name
      = if h.state ≠ .unknown ∧ name = s.stateField then some (.optionSet h.state.code)
        else none :=
  basis_get?_of_no_status fun _ => hname

/-- The status attribute holds the status, when it is not the state attribute. -/
theorem basis_get?_status (hne : s.stateField ≠ s.statusField) (h : Header) :
    (basis s h).get? s.statusField = h.status.map .optionSet := by
  unfold basis
  cases h.status with
  | some status => exact (Record.get?_set ..).trans (if_pos rfl)
  | none =>
      show Record.get? (if h.state = .unknown then _ else _) s.statusField = none
      split
      · rfl
      · rw [Record.get?_set, if_neg hne.symm]
        rfl

/-! ### The finished record -/

/-- What a record written back for an entity holds. -/
structure Sent (s : Schema) (converters : Converters) (e : Entity) (record : Record) : Prop where
  id : record.id = e.header.id
  entity : record.entity = s.entity
  /-- A field that was sent left its member's value under its name. -/
  members : ∀ f ∈ s.fields, Sends e f →
    ∃ out, outgoing converters f (e.read f) = .ok out ∧ record.get? f.wire = some out.toValue
  /-- Any other name has what the lifecycle put there. -/
  others : ∀ name, (∀ f ∈ s.fields, Sends e f → name ≠ f.wire) →
    record.get? name = (basis s e.header).get? name

/-- **Writing back sends the lifecycle and the members, and nothing else.** -/
theorem sent_of_toRecord {catalog : Catalog} {type : TypeName} (hs : catalog.schema? type = some s)
    (h : e.toRecord catalog converters type = .ok record) : Sent s converters e record := by
  have hb := Catalog.built_of_schema? hs
  unfold Entity.toRecord at h
  rw [if_neg (Catalog.ne_dynamicType_of_schema? hs), hs] at h
  have h : s.fields.foldlM (writeBack s converters e) (basis s e.header) = .ok record := h
  obtain ⟨hid, hentity⟩ := writeAll_keeps h
  obtain ⟨hid', hentity'⟩ := basis_keeps s e.header
  refine ⟨hid.trans hid', hentity.trans hentity', ?_, ?_⟩
  · intro f hf hsends
    obtain ⟨before, after, hsplit⟩ := List.append_of_mem hf
    obtain ⟨-, hafter⟩ := hb.wire_ne_of_split hsplit
    rw [hsplit] at h
    exact writeAll_get?_of_sends hafter hsends h
  · intro name hname
    exact writeAll_get?_of_ne hname h

namespace Sent

variable (hsent : Sent s converters e record)

include hsent

/-- The state attribute holds the state, unless it is unknown. -/
theorem state (hne : s.stateField ≠ s.statusField) (hfree : ∀ f ∈ s.fields, f.wire ≠ s.stateField) :
    record.get? s.stateField
      = if e.header.state = .unknown then none else some (.optionSet e.header.state.code) := by
  rw [hsent.others _ fun f hf _ => (hfree f hf).symm, basis_get?_of_ne_status hne]
  by_cases hunknown : e.header.state = .unknown
  · rw [if_pos hunknown, if_neg fun hand => hand.1 hunknown]
  · rw [if_neg hunknown, if_pos ⟨hunknown, rfl⟩]

/-- The status attribute holds the status, if there is one. -/
theorem status (hne : s.stateField ≠ s.statusField)
    (hfree : ∀ f ∈ s.fields, f.wire ≠ s.statusField) :
    record.get? s.statusField = e.header.status.map .optionSet := by
  rw [hsent.others _ fun f hf _ => (hfree f hf).symm, basis_get?_status hne]

/-- A field that was not sent has what the lifecycle put there. -/
theorem get?_of_not_sends (hb : s.Built) (hf : f ∈ s.fields) (hnot : ¬Sends e f) :
    record.get? f.wire = (basis s e.header).get? f.wire := by
  refine hsent.others _ ?_
  intro g hg hsends hwire
  rw [hb.field_unique hf hg hwire] at hnot
  exact hnot hsends

/-- A field that was not sent has no attribute. -/
theorem absent (hb : s.Built) (hf : f ∈ s.fields)
    (hfree : f.wire ≠ s.stateField ∧ f.wire ≠ s.statusField) (hnot : ¬Sends e f) :
    record.get? f.wire = none := by
  rw [hsent.get?_of_not_sends hb hf hnot, basis_get?_of_ne_status hfree.2,
    if_neg fun hand => hfree.1 hand.2]

end Sent

end Mapping

end TypedRecords
