/-
What reading a record does, field by field.

Reading is a fold over a type's fields, and everything said about it is said of one step first.
`Filled` is that step: an absent attribute leaves the entity alone, a scalar is written to its slot,
and a link is vacated or filled from the record that its content names, read as the linked type.  A
step touches one place of the entity, a slot or a link, and nothing else, so a property of the whole
reading is a property that each step keeps.

The bound on the depth of nested readings plays no part in any of this: a reading that succeeds
within some depth succeeds in the same way within any greater one.
-/
import TypedRecords.Mapping
import TypedRecords.Proofs.Scalar.Member

namespace TypedRecords

/-! ### Where a field is found in an entity -/

/-- The place of an entity that a binding leads to: a slot, or a link by name. -/
def Binding.place : Binding → Slot ⊕ String
  | .scalar slot => .inl slot
  | .link slot _ => .inr slot

theorem Binding.place_eq_inl_iff {binding : Binding} {slot : Slot} :
    binding.place = .inl slot ↔ binding = .scalar slot := by
  cases binding with
  | scalar other => simp [place]
  | link other linked => simp [place]

namespace Entity

/-- Fields bound to one place read the same. -/
theorem read_of_place_eq {f g : Field} (h : f.binding.place = g.binding.place) (e : Entity) :
    e.read f = e.read g := by
  unfold read
  cases hf : f.binding with
  | scalar slot =>
      cases hg : g.binding with
      | scalar other =>
          rw [hf, hg] at h
          cases h
          rfl
      | link other linked =>
          rw [hf, hg] at h
          cases h
  | link slot linked =>
      cases hg : g.binding with
      | scalar other =>
          rw [hf, hg] at h
          cases h
      | link other _ =>
          rw [hf, hg] at h
          cases h
          rfl

theorem link?_setLink_of_ne {slot other : String} (h : other ≠ slot) (e : Entity)
    (linked : Option Entity) : (e.setLink slot linked).link? other = e.link? other := by
  have hfilter : (e.links.filter (·.1 ≠ slot)).lookup other = e.links.lookup other := by
    induction e.links with
    | nil => rfl
    | cons link rest ih =>
        obtain ⟨name, held⟩ := link
        by_cases hname : name = slot
        · have hother : (other == name) = false := beq_false_of_ne fun heq => h (heq.trans hname)
          rw [List.filter_cons_of_neg (by simpa using hname), ih, List.lookup_cons, hother]
        · rw [List.filter_cons_of_pos (by simpa using hname), List.lookup_cons, List.lookup_cons,
            ih]
  cases linked with
  | none => exact hfilter
  | some l =>
      have hother : (other == slot) = false := beq_false_of_ne h
      show ((slot, l) :: e.links.filter (·.1 ≠ slot)).lookup other = e.links.lookup other
      rw [List.lookup_cons, hother]
      exact hfilter

/-- Setting a link touches the fields of that link only. -/
theorem read_setLink_of_ne {g : Field} {slot : String} (h : g.binding.place ≠ .inr slot)
    (e : Entity) (linked : Option Entity) : (e.setLink slot linked).read g = e.read g := by
  unfold read
  cases hg : g.binding with
  | scalar other =>
      cases linked with
      | none => rfl
      | some l => rfl
  | link other _ =>
      have hother : other ≠ slot := by
        rintro rfl
        exact h (by rw [hg]; rfl)
      show linkScalar _ = linkScalar _
      rw [link?_setLink_of_ne hother]

/-- Writing a slot touches the fields of that slot only. -/
theorem read_set_of_ne {g : Field} {slot : Slot} (h : g.binding.place ≠ .inl slot)
    (e : Entity) (value : slot.type.Carrier) :
    { e with members := e.members.set slot value }.read g = e.read g := by
  unfold read
  cases hg : g.binding with
  | scalar other =>
      have hother : slot ≠ other := by
        rintro rfl
        exact h (by rw [hg]; rfl)
      show other.type.toScalar _ = other.type.toScalar _
      rw [Members.get_set_of_ne hother]
  | link other _ => rfl

end Entity

namespace Mapping

variable {nested : Reader} {vacant : Vacancy} {s : Schema} {converters : Converters}
  {record : Record}

/-! ### One field -/

/-- Without converters a value comes in as its field would send it. -/
theorem incoming_empty (f : Field) (raw : Value) :
    incoming .empty f raw = (Scalar.ofValue raw).sent f.isChoice := rfl

/-- The content of a link, joined or fetched later. -/
def content (s : Schema) (record : Record) (place : Nat) (f : Field) (value : Scalar) :
    Except MappingError (Option Linked) :=
  if f.eager then pending s f value else joined s record place f value

/-- A link has its content from the value that its attribute comes in as. -/
theorem link_of_filling {place : Nat} {f : Field} {slot : String} {linked : TypeName}
    {source : Option Linked}
    (h : filling s converters record place f = .ok (.link slot linked source)) :
    ∃ raw value, record.get? f.wire = some raw ∧ incoming converters f raw = .ok value ∧
      f.binding = .link slot linked ∧ content s record place f value = .ok source := by
  unfold filling at h
  cases hraw : record.get? f.wire with
  | none =>
      rw [hraw] at h
      cases h
  | some raw =>
      simp only [hraw] at h
      obtain ⟨value, hvalue, h⟩ := bind_eq_ok.mp h
      cases hbinding : f.binding with
      | scalar slot =>
          rw [hbinding] at h
          cases h
      | link slot linked =>
          rw [hbinding] at h
          obtain ⟨source, hcontent, hlink⟩ := map_eq_ok.mp h
          cases hlink
          exact ⟨raw, value, rfl, mapError_eq_ok.mp hvalue, rfl, hcontent⟩

/-- A link that is fetched later has a placeholder's content, and a joined one that of what is under
an alias. -/
theorem content_cases {place : Nat} {f : Field} {value : Scalar} {source : Linked}
    (h : content s record place f value = .ok (some source)) :
    (f.eager = true ∧ ∃ r, value = .reference r ∧ source.record = placeholder r) ∨
      f.eager = false ∧ ∃ link, s.findLink? f.wire ((lookup? value).map (·.entity)) = some link ∧
        source.record = record.extract link.childEntity place := by
  unfold content at h
  cases heager : f.eager with
  | true =>
      rw [if_pos heager] at h
      cases value with
      | reference r =>
          cases h
          exact .inl ⟨rfl, r, rfl, rfl⟩
      | _ => cases h
  | false =>
      rw [if_neg (by simp [heager]), joined] at h
      split at h
      · cases h
      · cases hfind : s.findLink? f.wire ((lookup? value).map (·.entity)) with
        | none =>
            simp only [hfind] at h
            cases h
        | some link =>
            simp only [hfind] at h
            cases h
            exact .inr ⟨rfl, link, rfl, rfl⟩

/-- What a field that is the `place`-th joined one, if it is joined, does to an entity. -/
inductive Filled (nested : Reader) (vacant : Vacancy) (s : Schema) (converters : Converters)
    (record : Record) (place : Nat) (f : Field) (e : Entity) : Entity → Prop
  /-- The attribute is absent. -/
  | untouched (habsent : record.get? f.wire = none) :
      Filled nested vacant s converters record place f e e
  /-- The attribute's value is written to a slot. -/
  | scalar {slot : Slot} {raw : Value} {value : Scalar} {members : Members}
      (hbinding : f.binding = .scalar slot) (hraw : record.get? f.wire = some raw)
      (hvalue : incoming converters f raw = .ok value)
      (hwrite : e.members.write slot value = .ok members) :
      Filled nested vacant s converters record place f e { e with members }
  /-- The link has no content. -/
  | cleared {slot : String} {linked : TypeName} {raw : Value} {value : Scalar}
      (hbinding : f.binding = .link slot linked) (hraw : record.get? f.wire = some raw)
      (hvalue : incoming converters f raw = .ok value)
      (hcontent : content s record place f value = .ok none) :
      Filled nested vacant s converters record place f e (e.setLink slot (vacant slot linked))
  /-- The link's content is read as the linked type. -/
  | linked {slot : String} {linked : TypeName} {raw : Value} {value : Scalar}
      {source : Linked} {child : Entity}
      (hbinding : f.binding = .link slot linked) (hraw : record.get? f.wire = some raw)
      (hvalue : incoming converters f raw = .ok value)
      (hcontent : content s record place f value = .ok (some source))
      (hchild : nested linked source.record = .ok child) :
      Filled nested vacant s converters record place f e
        (e.setLink slot (some (settle source child)))

theorem filled_of_fill {place : Nat} {f : Field} {e e' : Entity}
    (h : fill nested vacant s e (f, filling s converters record place f) = .ok e') :
    Filled nested vacant s converters record place f e e' := by
  unfold fill at h
  obtain ⟨step, hstep, h⟩ := bind_eq_ok.mp h
  simp only [filling] at hstep
  cases hraw : record.get? f.wire with
  | none =>
      rw [hraw] at hstep
      cases hstep
      cases h
      exact .untouched hraw
  | some raw =>
      simp only [hraw] at hstep
      obtain ⟨value, hvalue, hstep⟩ := bind_eq_ok.mp hstep
      have hvalue : incoming converters f raw = .ok value := mapError_eq_ok.mp hvalue
      cases hbinding : f.binding with
      | scalar slot =>
          rw [hbinding] at hstep
          cases hstep
          obtain ⟨members, hwrite, h⟩ := bind_eq_ok.mp h
          cases h
          exact .scalar hbinding hraw hvalue (mapError_eq_ok.mp hwrite)
      | link slot linked =>
          rw [hbinding] at hstep
          obtain ⟨source, hcontent, rfl⟩ := map_eq_ok.mp hstep
          cases source with
          | none =>
              cases h
              exact .cleared hbinding hraw hvalue hcontent
          | some source =>
              obtain ⟨child, hchild, h⟩ := bind_eq_ok.mp h
              cases h
              exact .linked hbinding hraw hvalue hcontent hchild

/-- A step keeps the header. -/
theorem Filled.header_eq {place : Nat} {f : Field} {e e' : Entity}
    (h : Filled nested vacant s converters record place f e e') : e'.header = e.header := by
  cases h with
  | untouched _ => rfl
  | scalar _ _ _ _ => rfl
  | cleared _ _ _ _ => exact Entity.header_setLink ..
  | linked _ _ _ _ _ => rfl

/-- A step touches its field's place only. -/
theorem Filled.read_of_ne {place : Nat} {f g : Field} {e e' : Entity}
    (h : Filled nested vacant s converters record place f e e')
    (hne : g.binding.place ≠ f.binding.place) : e'.read g = e.read g := by
  cases h with
  | untouched _ => rfl
  | scalar hbinding _ _ hwrite =>
      rw [hbinding] at hne
      obtain ⟨held, -, rfl⟩ := map_eq_ok.mp hwrite
      exact Entity.read_set_of_ne hne e held
  | cleared hbinding _ _ _ =>
      rw [hbinding] at hne
      exact Entity.read_setLink_of_ne hne e _
  | linked hbinding _ _ _ _ =>
      rw [hbinding] at hne
      exact Entity.read_setLink_of_ne hne e _

/-- A step leaves every slot but its field's own. -/
theorem Filled.get_of_ne {place : Nat} {f : Field} {e e' : Entity} {slot : Slot}
    (h : Filled nested vacant s converters record place f e e') (hne : f.binding.place ≠ .inl slot) :
    e'.members.get slot = e.members.get slot := by
  cases h with
  | untouched _ => rfl
  | @scalar other _ _ _ hbinding _ _ hwrite =>
      have hother : other ≠ slot := by
        rintro rfl
        exact hne (by rw [hbinding]; rfl)
      obtain ⟨held, -, rfl⟩ := map_eq_ok.mp hwrite
      exact Members.get_set_of_ne hother e.members held
  | cleared _ _ _ _ => rw [Entity.members_setLink]
  | linked _ _ _ _ _ => rfl

/-- A step leaves every link but its field's own. -/
theorem Filled.link?_of_ne {place : Nat} {f : Field} {e e' : Entity} {slot : String}
    (h : Filled nested vacant s converters record place f e e') (hne : f.binding.place ≠ .inr slot) :
    e'.link? slot = e.link? slot := by
  have hother : ∀ {other : String} {linked : TypeName}, f.binding = .link other linked →
      slot ≠ other := by
    rintro other linked hbinding rfl
    exact hne (by rw [hbinding]; rfl)
  cases h with
  | untouched _ => rfl
  | scalar _ _ _ _ => rfl
  | cleared hbinding _ _ _ => exact Entity.link?_setLink_of_ne (hother hbinding) e _
  | linked hbinding _ _ _ _ => exact Entity.link?_setLink_of_ne (hother hbinding) e _

/-- A field without an attribute does nothing. -/
theorem Filled.eq_of_absent {place : Nat} {f : Field} {e e' : Entity}
    (h : Filled nested vacant s converters record place f e e')
    (habsent : record.get? f.wire = none) : e' = e := by
  cases h with
  | untouched _ => rfl
  | scalar _ hraw _ _ => cases habsent.symm.trans hraw
  | cleared _ hraw _ _ => cases habsent.symm.trans hraw
  | linked _ hraw _ _ _ => cases habsent.symm.trans hraw

/-! ### All fields -/

/-- How many joined fields a record has an attribute for. -/
def met (record : Record) (fields : List Field) : Nat :=
  (fields.filter fun f => f.isJoined && (record.get? f.wire).isSome).length

/-- Filling the members of fields whose first joined one would be the `place`-th. -/
def fillAll (nested : Reader) (vacant : Vacancy) (s : Schema) (converters : Converters)
    (record : Record) (place : Nat) (fields : List Field) (e : Entity) : Except MappingError Entity :=
  (fillings s converters record place fields).foldlM (fill nested vacant s) e

/-- The place that comes after a field, met or not. -/
theorem add_met_cons (place : Nat) (f : Field) (rest : List Field) :
    place + met record (f :: rest)
      = (if f.isJoined && (record.get? f.wire).isSome then place + 1 else place)
        + met record rest := by
  unfold met
  rw [List.filter_cons]
  split
  · rw [List.length_cons]
    omega
  · rfl

theorem fillings_append (place : Nat) (before after : List Field) :
    fillings s converters record place (before ++ after)
      = fillings s converters record place before
        ++ fillings s converters record (place + met record before) after := by
  induction before generalizing place with
  | nil => rfl
  | cons f rest ih =>
      rw [List.cons_append, fillings, fillings, List.cons_append, ih, add_met_cons]

/-- What fills a field does so at the place that counts the ones met before. -/
theorem exists_split_of_mem_fillings {place : Nat} {fields : List Field}
    {step : Field × Except MappingError Filling}
    (h : step ∈ fillings s converters record place fields) :
    ∃ before f after, fields = before ++ f :: after ∧
      step = (f, filling s converters record (place + met record before) f) := by
  induction fields generalizing place with
  | nil => cases h
  | cons f rest ih =>
      rw [fillings] at h
      rcases List.mem_cons.mp h with rfl | hrest
      · exact ⟨[], f, rest, rfl, rfl⟩
      · obtain ⟨before, g, after, rfl, hstep⟩ := ih hrest
        refine ⟨f :: before, g, after, rfl, ?_⟩
        rw [add_met_cons]
        exact hstep

theorem mem_fillings {place : Nat} {fields : List Field}
    {step : Field × Except MappingError Filling}
    (h : step ∈ fillings s converters record place fields) :
    ∃ f ∈ fields, ∃ place, step = (f, filling s converters record place f) := by
  obtain ⟨before, f, after, rfl, hstep⟩ := exists_split_of_mem_fillings h
  exact ⟨f, by simp, _, hstep⟩

/-- **What every field keeps, a reading keeps.** -/
theorem fillAll_keeps {P : Entity → Prop} {place : Nat} {fields : List Field} {e e' : Entity}
    (hstep : ∀ f ∈ fields, ∀ place c c', P c →
      Filled nested vacant s converters record place f c c' → P c')
    (he : P e) (h : fillAll nested vacant s converters record place fields e = .ok e') : P e' := by
  refine foldlM_keeps ?_ he h
  intro step hmem c c' hc hfill
  obtain ⟨f, hf, place, rfl⟩ := mem_fillings hmem
  exact hstep f hf place c c' hc (filled_of_fill hfill)

/-- A reading of fields passes by each of them, at the place that counts the ones met before. -/
theorem fillAll_split {place : Nat} {before after : List Field} {f : Field} {e e' : Entity}
    (h : fillAll nested vacant s converters record place (before ++ f :: after) e = .ok e') :
    ∃ c c' next, fillAll nested vacant s converters record place before e = .ok c ∧
      Filled nested vacant s converters record (place + met record before) f c c' ∧
      fillAll nested vacant s converters record next after c' = .ok e' := by
  unfold fillAll at h
  rw [fillings_append, fillings] at h
  obtain ⟨c, hbefore, h⟩ := foldlM_append_eq_ok.mp h
  obtain ⟨c', hf, hafter⟩ := foldlM_cons_eq_ok.mp h
  exact ⟨c, c', _, hbefore, filled_of_fill hf, hafter⟩

theorem fillAll_header {place : Nat} {fields : List Field} {e e' : Entity}
    (h : fillAll nested vacant s converters record place fields e = .ok e') : e'.header = e.header :=
  fillAll_keeps (P := fun c => c.header = e.header)
    (fun _ _ _ _ _ hc hfilled => hfilled.header_eq.trans hc) rfl h

/-- A slot keeps its value when no field of it has an attribute. -/
theorem fillAll_get {place : Nat} {fields : List Field} {e e' : Entity} {slot : Slot}
    (habsent : ∀ f ∈ fields, f.binding = .scalar slot → record.get? f.wire = none)
    (h : fillAll nested vacant s converters record place fields e = .ok e') :
    e'.members.get slot = e.members.get slot := by
  refine fillAll_keeps (P := fun c => c.members.get slot = e.members.get slot) ?_ rfl h
  intro f hf _ c c' hc hfilled
  by_cases hbinding : f.binding = .scalar slot
  · rw [hfilled.eq_of_absent (habsent f hf hbinding)]
    exact hc
  · exact (hfilled.get_of_ne (Binding.place_eq_inl_iff.not.mpr hbinding)).trans hc

/-! ### A whole record -/

theorem members_started (catalog : Catalog) (type : TypeName) (stateField statusField : String)
    (record : Record) :
    (started catalog type stateField statusField record).members
      = (catalog.fresh type).members := rfl

/-- A reading starts with the members and links of the fresh entity. -/
theorem read_started (catalog : Catalog) (type : TypeName) (stateField statusField : String)
    (record : Record) (f : Field) :
    (started catalog type stateField statusField record).read f = (catalog.fresh type).read f := rfl

/-- Reading a record as a mapped type fills its fields in order, after the header. -/
theorem readWith_mapped {catalog : Catalog} {type : TypeName}
    (hs : catalog.schema? type = some s) (hblank : record.isBlank = false) :
    readWith nested catalog converters type record
      = fillAll nested (catalog.vacant type) s converters record 1 s.fields
          (started catalog type s.stateField s.statusField record) := by
  simp only [readWith, hblank, hs]
  rfl

/-- Reading a record as a type that is not mapped gives it a header. -/
theorem readWith_unmapped {catalog : Catalog} {type : TypeName}
    (hs : catalog.schema? type = none) (hblank : record.isBlank = false) :
    readWith nested catalog converters type record
      = .ok (started catalog type defaultStateField defaultStatusField record) := by
  simp only [readWith, hblank, hs]
  rfl

theorem readWith_blank {catalog : Catalog} {type : TypeName} (hblank : record.isBlank = true) :
    readWith nested catalog converters type record = .ok (catalog.fresh type) := by
  simp only [readWith, hblank, if_true]

/-! ### The bound on the depth -/

/-- A reading that succeeds with some nested readings succeeds with any that extend them. -/
theorem fill_mono {nested' : Reader}
    (hnested : ∀ type record e, nested type record = .ok e → nested' type record = .ok e)
    {e e' : Entity} {step : Field × Except MappingError Filling}
    (h : fill nested vacant s e step = .ok e') : fill nested' vacant s e step = .ok e' := by
  unfold fill at h ⊢
  obtain ⟨filling, hfilling, h⟩ := bind_eq_ok.mp h
  refine bind_eq_ok.mpr ⟨filling, hfilling, ?_⟩
  cases filling with
  | untouched => exact h
  | scalar slot value => exact h
  | link slot linked source =>
      cases source with
      | none => exact h
      | some source =>
          obtain ⟨child, hchild, h⟩ := bind_eq_ok.mp h
          exact bind_eq_ok.mpr ⟨child, hnested _ _ _ hchild, h⟩

theorem foldlM_fill_mono {nested' : Reader}
    (hnested : ∀ type record e, nested type record = .ok e → nested' type record = .ok e)
    (steps : List (Field × Except MappingError Filling)) :
    ∀ {e e' : Entity}, steps.foldlM (fill nested vacant s) e = .ok e' →
      steps.foldlM (fill nested' vacant s) e = .ok e' := by
  induction steps with
  | nil => intro e e' h; exact h
  | cons step rest ih =>
      intro e e' h
      obtain ⟨c, hc, hrest⟩ := foldlM_cons_eq_ok.mp h
      exact foldlM_cons_eq_ok.mpr ⟨c, fill_mono hnested hc, ih hrest⟩

theorem readWith_mono {nested' : Reader}
    (hnested : ∀ type record e, nested type record = .ok e → nested' type record = .ok e)
    {catalog : Catalog} {type : TypeName} {e : Entity}
    (h : readWith nested catalog converters type record = .ok e) :
    readWith nested' catalog converters type record = .ok e := by
  by_cases hblank : record.isBlank = true
  · rw [readWith_blank hblank] at h ⊢
    exact h
  · simp only [readWith, hblank] at h ⊢
    cases hs : catalog.schema? type with
    | none =>
        rw [hs] at h
        exact h
    | some s =>
        rw [hs] at h
        exact foldlM_fill_mono hnested _ h

/-- A reading that succeeds within some depth succeeds within one level more. -/
theorem readWithin_succ {catalog : Catalog} : ∀ (depth : Nat) {type : TypeName}
    {record : Record} {e : Entity},
    readWithin catalog converters depth type record = .ok e →
      readWithin catalog converters (depth + 1) type record = .ok e := by
  intro depth
  induction depth with
  | zero => intro type record e h; cases h
  | succ depth ih => intro type record e h; exact readWith_mono (fun _ _ _ => ih) h

/-- **A nested reading is a reading.**  The records that links name are read just as any record of
the linked type would be. -/
theorem ofRecord_of_nested {catalog : Catalog} {type : TypeName} {e : Entity}
    (h : readWithin catalog converters (depthLimit - 1) type record = .ok e) :
    Entity.ofRecord catalog converters type record = .ok e :=
  readWithin_succ (depthLimit - 1) h

/-- Reading a record as a mapped type fills its fields in order. -/
theorem ofRecord_mapped {catalog : Catalog} {type : TypeName}
    (hs : catalog.schema? type = some s) (hblank : record.isBlank = false) :
    Entity.ofRecord catalog converters type record
      = fillAll (readWithin catalog converters (depthLimit - 1)) (catalog.vacant type) s converters
          record 1 s.fields (started catalog type s.stateField s.statusField record) :=
  readWith_mapped hs hblank

/-- An entity read from a record of a mapped type has the header that the record gives it. -/
theorem header_of_ofRecord {catalog : Catalog} {type : TypeName} {e : Entity}
    (hs : catalog.schema? type = some s) (hblank : record.isBlank = false)
    (h : Entity.ofRecord catalog converters type record = .ok e) :
    e.header = header (catalog.fresh type).header s.stateField s.statusField record := by
  rw [ofRecord_mapped hs hblank] at h
  exact fillAll_header h

/-- An entity read from a record of a mapped type holds the record. -/
theorem record_of_ofRecord {catalog : Catalog} {type : TypeName} {e : Entity}
    (hs : catalog.schema? type = some s) (hblank : record.isBlank = false)
    (h : Entity.ofRecord catalog converters type record = .ok e) :
    e.header.record = some record := by
  rw [header_of_ofRecord hs hblank h]
  rfl

theorem ofRecord_blank {catalog : Catalog} {type : TypeName} (hblank : record.isBlank = true) :
    Entity.ofRecord catalog converters type record = .ok (catalog.fresh type) :=
  readWith_blank hblank

end Mapping

end TypedRecords
