/-
The lifecycle in the header and in members.

A schema may map a member to the attribute of the state or of the status, and then the lifecycle is
told twice.  Written back, it comes from the header first and from the members after it: a selected
member that is mapped to one of the two attributes has the last word.  Read, the header takes the
attribute's value as it stands, and only if it is a 32-bit number or an option code, while the
member takes whatever can be made into one.  So the two tell the same for those values, and for
others only by chance.
-/
import TypedRecords.Proofs.Mapping.Reading
import TypedRecords.Proofs.Mapping.Selection
import TypedRecords.Proofs.Record

namespace TypedRecords

/-! ### Option codes by another name -/

namespace Scalar

/-- A scalar that a field, asking for an option code or not, sends as this one. -/
def TellsCode (isChoice : Bool) (code : Int32) : Scalar → Prop
  | choice c => c.code = code
  | int n => isChoice = true ∧ n = code
  | bigint n => isChoice = true ∧ n.toInt = code.toInt
  | _ => False

theorem toChoice_eq_choice_iff {s : Scalar} {code : Int32} :
    s.toChoice = .ok (choice ⟨code⟩) ↔ s.TellsCode true code := by
  cases s with
  | choice c =>
      obtain ⟨held⟩ := c
      simp [toChoice, TellsCode]
  | int n => simp [toChoice, TellsCode]
  | bigint n =>
      constructor
      · intro h
        obtain ⟨held, hheld, hout⟩ := toChoice_bigint h
        cases hout
        exact ⟨rfl, (Number.toInt_of_int32? hheld).symm⟩
      · rintro ⟨-, hn⟩
        have hcode : Number.int32? n.toInt = some code := hn ▸ Number.int32?_toInt code
        simp only [toChoice, hcode]
  | _ => simp [toChoice, TellsCode, refuse]

theorem sent_eq_choice_iff {isChoice : Bool} {s : Scalar} {code : Int32} :
    s.sent isChoice = .ok (choice ⟨code⟩) ↔ s.TellsCode isChoice code := by
  cases isChoice with
  | true => exact toChoice_eq_choice_iff
  | false =>
      cases s with
      | choice c =>
          obtain ⟨held⟩ := c
          simp [sent, TellsCode]
      | _ => simp [sent, TellsCode]

theorem ofValue_eq_null_iff {raw : Value} : ofValue raw = null ↔ raw = .null := by
  cases raw <;> simp [ofValue]

/-- Nothing but null is sent as null. -/
theorem ne_null_of_sent {isChoice : Bool} {s out : Scalar} (hs : s ≠ .null)
    (h : s.sent isChoice = .ok out) : out ≠ .null := by
  cases isChoice with
  | true =>
      obtain ⟨c, rfl⟩ := choice_of_toChoice hs h
      nofun
  | false =>
      cases h
      exact hs

end Scalar

/-- An optional member takes what the type it holds takes, but for null. -/
theorem Member.ofScalar_optional {α : Type} [Member α] {s : Scalar} (hs : s ≠ .null) :
    (Member.ofScalar s : Except ConversionError (Option α)) = some <$> Member.ofScalar s := by
  cases s with
  | null => exact absurd rfl hs
  | _ => rfl

namespace ChoiceSet

/-- A closed choice reads a scalar and what a field makes of it alike. -/
theorem ofScalar_sent (set : ChoiceSet) {isChoice : Bool} {s out : Scalar}
    (h : s.sent isChoice = .ok out) : set.ofScalar out = set.ofScalar s := by
  cases isChoice with
  | false =>
      cases h
      rfl
  | true =>
      have h : s.toChoice = .ok out := h
      unfold ofScalar
      rw [Scalar.toChoice_idem h, h]

/-- What a closed choice reads is null, or tells one of its codes. -/
theorem ofScalar_eq_ok {set : ChoiceSet} {s : Scalar} {held : Option set.Code}
    (h : set.ofScalar s = .ok held) :
    s = .null ∧ held = none ∨ ∃ code, held = some code ∧ s.TellsCode true code.1 := by
  obtain ⟨out, hout, h⟩ := bind_eq_ok.mp h
  by_cases hnull : s = .null
  · subst hnull
    cases hout
    cases h
    exact .inl ⟨rfl, rfl⟩
  · obtain ⟨⟨c⟩, rfl⟩ := Scalar.choice_of_toChoice hnull hout
    dsimp only at h
    split at h
    · rename_i code hcode
      cases h
      refine .inr ⟨code, rfl, ?_⟩
      unfold ofCode? at hcode
      split at hcode
      · cases hcode
        exact Scalar.toChoice_eq_choice_iff.mp hout
      · cases hcode
    · cases h

end ChoiceSet

/-- The code of a state stands for it. -/
theorem Lifecycle.code_ofCode? {code : Int32} (h : code ∈ choices.codes) :
    ((ofCode? code).getD .unknown).code = code := by
  simp only [choices, List.mem_cons, List.not_mem_nil, or_false] at h
  rcases h with rfl | rfl | rfl | rfl
  · rfl
  · rfl
  · rfl
  · rfl

namespace Mapping

variable {catalog : Catalog} {type : TypeName} {s : Schema} {converters : Converters} {e : Entity}
  {record : Record} {f : Field}

/-! ### Writing -/

/-- An attribute of the lifecycle has the header's code exactly when no selected field of that
attribute tells another one. -/
theorem Sent.optionSet_iff (hsent : Sent s .empty e record) {name : String} {code : Int32}
    (hbasis : (basis s e.header).get? name = some (.optionSet code)) :
    record.get? name = some (.optionSet code) ↔
      ∀ f ∈ s.fields, f.wire = name → Selected e f → (e.read f).TellsCode f.isChoice code := by
  constructor
  · rintro hget f hf rfl hselected
    obtain ⟨out, hout, hfield⟩ := hsent.members f hf (selected_iff_sends.mp hselected)
    rw [hget] at hfield
    rw [outgoing_empty] at hout
    refine Scalar.sent_eq_choice_iff.mp (hout.trans ?_)
    rw [← Scalar.ofValue_toValue out, ← Option.some.inj hfield]
    rfl
  · intro htells
    by_cases hfield : ∃ f ∈ s.fields, f.wire = name ∧ Selected e f
    · obtain ⟨f, hf, rfl, hselected⟩ := hfield
      obtain ⟨out, hout, hget⟩ := hsent.members f hf (selected_iff_sends.mp hselected)
      rw [outgoing_empty, Scalar.sent_eq_choice_iff.mpr (htells f hf rfl hselected)] at hout
      cases hout
      exact hget
    · rw [← hbasis]
      exact hsent.others name fun f hf hsends hname =>
        hfield ⟨f, hf, hname.symm, selected_iff_sends.mpr hsends⟩

/--
**The lifecycle is written as the header says, unless a selected member says otherwise.**

A known state and a status are written under their attributes as the header has them exactly when
no selected field of the attribute sends another value: the value of a selected field is there in
any case.
-/
theorem written_lifecycle_iff (hs : catalog.schema? type = some s)
    (hne : s.stateField ≠ s.statusField)
    (hwrite : e.toRecord catalog .empty type = .ok record) :
    (e.header.state ≠ .unknown →
      (record.get? s.stateField = some (.optionSet e.header.state.code) ↔
        ∀ f ∈ s.fields, f.wire = s.stateField → Selected e f →
          (e.read f).TellsCode f.isChoice e.header.state.code)) ∧
    (∀ status, e.header.status = some status →
      (record.get? s.statusField = some (.optionSet status) ↔
        ∀ f ∈ s.fields, f.wire = s.statusField → Selected e f →
          (e.read f).TellsCode f.isChoice status)) ∧
    ∀ f ∈ s.fields, Selected e f →
      ∃ out, (e.read f).sent f.isChoice = .ok out ∧ record.get? f.wire = some out.toValue := by
  have hsent := sent_of_toRecord hs hwrite
  refine ⟨fun hknown => hsent.optionSet_iff ?_, fun status hstatus => hsent.optionSet_iff ?_,
    fun f hf hselected => ?_⟩
  · rw [basis_get?_of_ne_status hne, if_pos ⟨hknown, rfl⟩]
  · rw [basis_get?_status hne, hstatus]
    rfl
  · obtain ⟨out, hout, hget⟩ := hsent.members f hf (selected_iff_sends.mp hselected)
    rw [outgoing_empty] at hout
    exact ⟨out, hout, hget⟩

/-- A catalog of incidents, with members for both attributes of the lifecycle. -/
def incidents : Catalog where
  describe
    | "Incident" =>
        { names := ["incident"]
          declarations :=
            [.scalar ⟨"stage", .coded Lifecycle.choices⟩ "stage" "statecode", .stateCode,
              .scalar ⟨"reason", .optional .int32⟩ "reason" "statuscode", .statusCode] }
    | _ => {}

/-- The schema of incidents. -/
def incidentSchema : Schema :=
  .ofDeclarations incidents.names (incidents.names "Incident")
    (incidents.describe "Incident").declarations

/-- The state of an incident as a member. -/
def incidentStage : Field :=
  { member := "stage", wire := "statecode"
    binding := .scalar ⟨"stage", .coded Lifecycle.choices⟩, isChoice := true }

/-- The status of an incident as a member. -/
def incidentReason : Field :=
  { member := "reason", wire := "statuscode", binding := .scalar ⟨"reason", .optional .int32⟩ }

/-- What is true of the two fields is true of all. -/
theorem forall_incidentFields {P : Field → Prop} (hstage : P incidentStage)
    (hreason : P incidentReason) : ∀ f ∈ incidentSchema.fields, P f := by
  have hfields : incidentSchema.fields = [incidentStage, incidentReason] := rfl
  rw [hfields]
  exact List.forall_mem_cons.mpr ⟨hstage, List.forall_mem_singleton.mpr hreason⟩

/-- An incident that its header calls active, with a status of 5 and a stage of its own. -/
def incident (stage : Lifecycle.choices.Code) : Entity where
  header := { state := .active, status := some 5 }
  members := ({} : Members).set ⟨"stage", .coded Lifecycle.choices⟩ stage

/-- An active incident whose stage says so too has its state and, for want of a reason, its status
written. -/
theorem written_lifecycle_iff_incident :
    ∃ record, incidents.schema? "Incident" = some incidentSchema ∧
      incidentSchema.stateField ≠ incidentSchema.statusField ∧
      (incident ⟨0, by decide⟩).toRecord incidents .empty "Incident" = .ok record ∧
      record.get? "statecode" = some (.optionSet Lifecycle.active.code) ∧
      record.get? "statuscode" = some (.optionSet 5) := by
  have hs : incidents.schema? "Incident" = some incidentSchema := rfl
  have hne : incidentSchema.stateField ≠ incidentSchema.statusField := by decide +kernel
  have hwrite : ∃ record,
      (incident ⟨0, by decide⟩).toRecord incidents .empty "Incident" = .ok record := ⟨_, rfl⟩
  obtain ⟨record, hwrite⟩ := hwrite
  obtain ⟨hstate, hstatus, -⟩ := written_lifecycle_iff hs hne hwrite
  refine ⟨record, hs, hne, hwrite, (hstate nofun).mpr ?_, (hstatus 5 rfl).mpr ?_⟩
  · exact forall_incidentFields (fun _ _ => rfl) fun hwire => absurd hwire (by decide)
  · exact forall_incidentFields (fun hwire => absurd hwire (by decide)) fun _ hselected =>
      absurd rfl hselected.held

/-- An active incident whose stage was never set is written as one of an unknown state. -/
theorem fresh_stage_overrides :
    ∃ record, incidents.schema? "Incident" = some incidentSchema ∧
      incidentSchema.stateField ≠ incidentSchema.statusField ∧
      (incident ⟨-1, by decide⟩).toRecord incidents .empty "Incident" = .ok record ∧
      (incident ⟨-1, by decide⟩).header.state = .active ∧
      record.get? incidentSchema.stateField = some (.optionSet Lifecycle.unknown.code) ∧
      record.get? incidentSchema.stateField ≠ some (.optionSet Lifecycle.active.code) :=
  ⟨_, rfl, by decide +kernel, rfl, rfl, rfl, by decide +kernel⟩

/-! ### Reading -/

/-- A member that no other field leads to is read from its field's attribute alone. -/
theorem read_of_unshared (hs : catalog.schema? type = some s) (hf : f ∈ s.fields) {slot : Slot}
    (hbinding : f.binding = .scalar slot)
    (hunshared : ∀ g ∈ s.fields, g.binding.place = f.binding.place → g = f) {raw : Value}
    (hraw : record.get? f.wire = some raw)
    (hread : Entity.ofRecord catalog converters type record = .ok e) :
    ∃ value held, incoming converters f raw = .ok value ∧
      slot.type.ofScalar ((catalog.fresh type).members.get slot) value = .ok held ∧
      e.read f = slot.type.toScalar held := by
  obtain ⟨before, after, hsplit⟩ := List.append_of_mem hf
  obtain ⟨hbefore, hafter⟩ := (Catalog.built_of_schema? hs).wire_ne_of_split hsplit
  -- no field before or after leads to the slot
  have hothers : ∀ g ∈ s.fields, g.wire ≠ f.wire → g.binding = .scalar slot →
      record.get? g.wire = none := by
    intro g hg hne hslot
    have hplace : g.binding.place = f.binding.place := by rw [hslot, hbinding]
    exact absurd (congrArg Field.wire (hunshared g hg hplace)) hne
  rw [ofRecord_mapped hs (Record.isBlank_of_get? (by rw [hraw]; rfl)), hsplit] at hread
  obtain ⟨c, c', next, hfirst, hfilled, hrest⟩ := fillAll_split hread
  have hfresh : c.members.get slot = (catalog.fresh type).members.get slot := by
    rw [← members_started catalog type s.stateField s.statusField record]
    exact fillAll_get (fun g hg => hothers g (by simp [hsplit, hg]) (hbefore g hg)) hfirst
  have hkept : e.members.get slot = c'.members.get slot :=
    fillAll_get (fun g hg => hothers g (by simp [hsplit, hg]) (hafter g hg)) hrest
  have hheld : e.read f = slot.type.toScalar (c'.members.get slot) := by
    rw [← hkept, Entity.read, hbinding]
    rfl
  cases hfilled with
  | untouched habsent => cases habsent.symm.trans hraw
  | scalar hslot hget hvalue hwrite =>
      cases hslot.symm.trans hbinding
      cases hget.symm.trans hraw
      obtain ⟨held, hof, rfl⟩ := map_eq_ok.mp hwrite
      rw [hfresh] at hof
      refine ⟨_, held, hvalue, hof, hheld.trans ?_⟩
      show slot.type.toScalar ((c.members.set slot held).get slot) = slot.type.toScalar held
      rw [Members.get_set_self]
  | cleared hlink _ _ _ => cases hlink.symm.trans hbinding
  | linked hlink _ _ _ _ => cases hlink.symm.trans hbinding

/-- A field of the state attribute whose member, its own, is one of the states' codes. -/
structure MirrorsState (s : Schema) (f : Field) (set : ChoiceSet) : Prop where
  mem : f ∈ s.fields
  wire : f.wire = s.stateField
  binding : ∃ name, f.binding = .scalar ⟨name, .coded set⟩
  codes : set.codes = Lifecycle.choices.codes
  unshared : ∀ g ∈ s.fields, g.binding.place = f.binding.place → g = f

/-- A field of the status attribute whose member, its own, is a number that may be absent. -/
structure MirrorsStatus (s : Schema) (f : Field) : Prop where
  mem : f ∈ s.fields
  wire : f.wire = s.statusField
  binding : ∃ name, f.binding = .scalar ⟨name, .optional .int32⟩
  unshared : ∀ g ∈ s.fields, g.binding.place = f.binding.place → g = f

/-- The header takes the state from a 32-bit number or an option code. -/
theorem header_state (fresh : Header) {raw : Value} (hraw : record.get? s.stateField = some raw) :
    (header fresh s.stateField s.statusField record).state
      = ((raw.asInt32?).bind Lifecycle.ofCode?).getD .unknown := by
  show (((record.get? s.stateField).bind Value.asInt32?).bind Lifecycle.ofCode?).getD .unknown = _
  rw [hraw]
  rfl

/-- The code that a value tells is the header's, if the header takes the value. -/
theorem code_of_tells {raw : Value} {code : Int32} (hcode : code ∈ Lifecycle.choices.codes)
    (htells : (Scalar.ofValue raw).TellsCode true code) :
    code = (((raw.asInt32?).bind Lifecycle.ofCode?).getD .unknown).code ↔
      (raw.asInt32?).isSome = true ∨ raw = .int64 (-1) := by
  cases raw with
  | int32 n =>
      obtain ⟨-, rfl⟩ := htells
      exact iff_of_true (Lifecycle.code_ofCode? hcode).symm (.inl rfl)
  | optionSet n =>
      obtain rfl : n = code := htells
      exact iff_of_true (Lifecycle.code_ofCode? hcode).symm (.inl rfl)
  | int64 n =>
      obtain ⟨-, hn⟩ := htells
      have hunknown : ((((Value.int64 n).asInt32?).bind Lifecycle.ofCode?).getD .unknown).code
          = -1 := rfl
      rw [hunknown]
      constructor
      · rintro rfl
        exact .inr (congrArg Value.int64 (Int64.toInt_inj.mp hn))
      · rintro (hsome | hraw)
        · cases hsome
        · cases hraw
          exact Int32.toInt_inj.mp hn.symm
  | _ => exact htells.elim

/-- A state member tells the header's state exactly when its attribute is a number that the header
takes too, or both come to be unknown. -/
theorem MirrorsState.read_iff {set : ChoiceSet} (hf : MirrorsState s f set)
    (hs : catalog.schema? type = some s)
    (hread : Entity.ofRecord catalog .empty type record = .ok e) {raw : Value}
    (hraw : record.get? f.wire = some raw) :
    e.read f = .choice ⟨e.header.state.code⟩ ↔
      (raw.asInt32?).isSome = true ∨ raw = .int64 (-1) ∨
        raw = .null ∧ (catalog.fresh type).read f = .choice ⟨Lifecycle.unknown.code⟩ := by
  obtain ⟨name, hbinding⟩ := hf.binding
  obtain ⟨value, held, hvalue, hheld, hmember⟩ :=
    read_of_unshared hs hf.mem hbinding hf.unshared hraw hread
  have hheader := header_of_ofRecord hs (Record.isBlank_of_get? (by rw [hraw]; rfl)) hread
  rw [hf.wire] at hraw
  have hsame : e.read f = .choice ⟨e.header.state.code⟩ ↔
      held.1 = (((raw.asInt32?).bind Lifecycle.ofCode?).getD .unknown).code := by
    rw [hmember, hheader, header_state _ hraw]
    simp [MemberType.toScalar]
  rw [hsame]
  rw [incoming_empty] at hvalue
  obtain ⟨code?, hcode?, rfl⟩ := map_eq_ok.mp hheld
  rw [set.ofScalar_sent hvalue] at hcode?
  rcases ChoiceSet.ofScalar_eq_ok hcode? with ⟨hnull, rfl⟩ | ⟨code, rfl, htells⟩
  · obtain rfl : raw = .null := Scalar.ofValue_eq_null_iff.mp hnull
    have hfresh : (catalog.fresh type).read f
        = .choice ⟨((catalog.fresh type).members.get ⟨name, .coded set⟩).1⟩ := by
      rw [Entity.read, hbinding]
      rfl
    rw [hfresh]
    show ((catalog.fresh type).members.get ⟨name, .coded set⟩).1 = Lifecycle.unknown.code ↔ _
    simp [Value.asInt32?]
  · have hnull : raw ≠ .null := by
      rintro rfl
      exact htells
    rw [Option.getD_some, code_of_tells (hf.codes ▸ code.2) htells]
    simp [hnull]

/-- A number is read as the header takes it, if the header takes it. -/
theorem int32_of_sent {raw : Value} {isChoice : Bool} {value : Scalar} {n code : Int32}
    (hvalue : (Scalar.ofValue raw).sent isChoice = .ok value)
    (hn : Member.ofScalar value = .ok n) (hcode : raw.asInt32? = some code) : n = code := by
  cases raw with
  | int32 m =>
      cases hcode
      cases isChoice with
      | true =>
          cases hvalue
          exact (Except.ok.inj hn).symm
      | false =>
          cases hvalue
          exact (Except.ok.inj hn).symm
  | optionSet m =>
      cases hcode
      obtain rfl := Scalar.sent_choice hvalue
      exact (Except.ok.inj hn).symm
  | _ => cases hcode

/-- A status member tells the header's status exactly when its attribute is a number that the header
takes too, or null. -/
theorem MirrorsStatus.read_iff (hf : MirrorsStatus s f) (hs : catalog.schema? type = some s)
    (hread : Entity.ofRecord catalog .empty type record = .ok e) {raw : Value}
    (hraw : record.get? f.wire = some raw) :
    e.read f = (e.header.status.map Scalar.int).getD .null ↔
      (raw.asInt32?).isSome = true ∨ raw = .null := by
  obtain ⟨name, hbinding⟩ := hf.binding
  obtain ⟨value, held, hvalue, hheld, hmember⟩ :=
    read_of_unshared hs hf.mem hbinding hf.unshared hraw hread
  have hheader := header_of_ofRecord hs (Record.isBlank_of_get? (by rw [hraw]; rfl)) hread
  rw [hf.wire] at hraw
  have hstatus : e.header.status = raw.asInt32? := by
    rw [hheader]
    show (record.get? s.statusField).bind Value.asInt32? = _
    rw [hraw]
    rfl
  rw [incoming_empty] at hvalue
  rw [hmember, hstatus]
  by_cases hnull : raw = .null
  · subst hnull
    obtain rfl := Scalar.sent_null hvalue
    cases hheld
    exact iff_of_true rfl (.inr rfl)
  · have hsome : Scalar.ofValue raw ≠ .null := Scalar.ofValue_eq_null_iff.not.mpr hnull
    have hheld : Member.ofScalar value = .ok held := hheld
    rw [Member.ofScalar_optional (Scalar.ne_null_of_sent hsome hvalue)] at hheld
    obtain ⟨n, hn, rfl⟩ := map_eq_ok.mp hheld
    show Scalar.int n = _ ↔ _
    cases hcode : raw.asInt32? with
    | none => simp [hnull]
    | some code => simp [int32_of_sent hvalue hn hcode]

/--
**Where header and member tell one lifecycle.**

A record was read that has a value for the state's or the status's attribute, and a member of its
own is mapped to it.  Header and member agree when the value is a 32-bit number or an option code,
and a status also when it is null.  Any other value that the member takes leaves the header without
a state or a status, so a state agrees only if the member came to be unknown itself: from a 64-bit
number, or from null when the member of a fresh entity is unknown.
-/
theorem lifecycle_read_iff (hs : catalog.schema? type = some s)
    (hread : Entity.ofRecord catalog .empty type record = .ok e) :
    (∀ f set raw, MirrorsState s f set → record.get? f.wire = some raw →
      (e.read f = .choice ⟨e.header.state.code⟩ ↔
        (raw.asInt32?).isSome = true ∨ raw = .int64 (-1) ∨
          raw = .null ∧ (catalog.fresh type).read f = .choice ⟨Lifecycle.unknown.code⟩)) ∧
    ∀ f raw, MirrorsStatus s f → record.get? f.wire = some raw →
      (e.read f = (e.header.status.map Scalar.int).getD .null ↔
        (raw.asInt32?).isSome = true ∨ raw = .null) :=
  ⟨fun _ _ _ hf hraw => hf.read_iff hs hread hraw, fun _ _ hf hraw => hf.read_iff hs hread hraw⟩

/-- An incident as a store has it, with a stage and a reason. -/
def staged (stage reason : Value) : Record :=
  (({ entity := "incident", id := ⟨14, by decide⟩ } : Record).set "statecode" stage).set
    "statuscode" reason

theorem mirrors_incident :
    MirrorsState incidentSchema incidentStage Lifecycle.choices ∧
      MirrorsStatus incidentSchema incidentReason := by
  have hstage : incidentStage ∈ incidentSchema.fields := List.mem_cons_self ..
  have hreason : incidentReason ∈ incidentSchema.fields :=
    List.mem_cons_of_mem _ (List.mem_cons_self ..)
  refine ⟨⟨hstage, rfl, ⟨_, rfl⟩, rfl, ?_⟩, ⟨hreason, rfl, ⟨_, rfl⟩, ?_⟩⟩
  · exact forall_incidentFields (fun _ => rfl) fun hplace => absurd hplace (by decide)
  · exact forall_incidentFields (fun hplace => absurd hplace (by decide)) fun _ => rfl

theorem lifecycle_read_iff_incident :
    ∃ e, incidents.schema? "Incident" = some incidentSchema ∧
      MirrorsState incidentSchema incidentStage Lifecycle.choices ∧
      MirrorsStatus incidentSchema incidentReason ∧
      Entity.ofRecord incidents .empty "Incident" (staged (.optionSet 1) (.int32 5)) = .ok e ∧
      e.read incidentStage = .choice ⟨e.header.state.code⟩ ∧
      e.read incidentReason = (e.header.status.map Scalar.int).getD .null := by
  have hs : incidents.schema? "Incident" = some incidentSchema := rfl
  obtain ⟨hstage, hreason⟩ := mirrors_incident
  have hread : ∃ e, Entity.ofRecord incidents .empty "Incident"
      (staged (.optionSet 1) (.int32 5)) = .ok e := ⟨_, rfl⟩
  obtain ⟨e, hread⟩ := hread
  obtain ⟨hstate, hstatus⟩ := lifecycle_read_iff hs hread
  exact ⟨e, hs, hstage, hreason, hread, (hstate _ _ _ hstage rfl).mpr (.inl rfl),
    (hstatus _ _ hreason rfl).mpr (.inl rfl)⟩

/-- An active incident whose stage and reason came as 64-bit numbers has an unknown state and no
status for its header. -/
theorem wide_lifecycle_not_told :
    ∃ e, incidents.schema? "Incident" = some incidentSchema ∧
      MirrorsState incidentSchema incidentStage Lifecycle.choices ∧
      MirrorsStatus incidentSchema incidentReason ∧
      Entity.ofRecord incidents .empty "Incident" (staged (.int64 0) (.int64 5)) = .ok e ∧
      e.read incidentStage = .choice ⟨Lifecycle.active.code⟩ ∧ e.header.state = .unknown ∧
      e.read incidentReason = .int 5 ∧ e.header.status = none :=
  ⟨_, rfl, mirrors_incident.1, mirrors_incident.2, rfl, rfl, rfl, rfl, rfl⟩

end Mapping

end TypedRecords
