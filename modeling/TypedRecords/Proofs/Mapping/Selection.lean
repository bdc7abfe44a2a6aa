/-
Which members an entity sends, and which one it fails with.

A field is selected when it may be written back, when the header's list names its attribute or its
member or names nothing at all, and when its member is not null.  That is asked of each field by
itself, whatever became of those before it.  So an entity cannot be written exactly when some
selected field cannot, and fails as the first of them; and else its record has the lifecycle's
attributes, the selected fields' and no other.

The list is only ever asked for its members.  Marking fields in another order, or twice, changes
nothing.
-/
import TypedRecords.Proofs.Mapping.WriteBack

namespace TypedRecords

/-! ### The list of fields to write back -/

namespace Header

/-- A list counts for the names in it: none of them lets every field pass. -/
theorem isMarked_iff (h : Header) (wire member : String) :
    h.isMarked wire member = true ↔
      h.marked = [] ∨ wire ∈ h.marked ∨ member ∈ h.marked := by
  simp [isMarked, or_assoc]

theorem mem_marked_mark (h : Header) (field name : String) :
    name ∈ (h.mark field).marked ↔ name ∈ h.marked ∨ name = field := by
  unfold mark
  split
  · rename_i hmem
    constructor
    · exact .inl
    · rintro (h | rfl)
      · exact h
      · exact hmem
  · simp

/-- Marking fields one after another adds their names. -/
theorem mem_marked_foldl_mark (name : String) : ∀ (fields : List String) (h : Header),
    name ∈ (fields.foldl mark h).marked ↔ name ∈ h.marked ∨ name ∈ fields := by
  intro fields
  induction fields with
  | nil => simp
  | cons field rest ih =>
      intro h
      rw [List.foldl_cons, ih, mem_marked_mark, List.mem_cons, or_assoc]

/-- Marking a field touches the list only. -/
theorem foldl_mark_eq : ∀ (fields : List String) (h : Header),
    fields.foldl mark h = { h with marked := (fields.foldl mark h).marked } := by
  intro fields
  induction fields with
  | nil => intro h; rfl
  | cons field rest ih =>
      intro h
      have hmark : h.mark field = { h with marked := (h.mark field).marked } := by
        unfold mark
        split
        · rfl
        · rfl
      rw [List.foldl_cons, ih, hmark]

end Header

namespace Entity

/-- The entity with another list of fields to write back. -/
def listing (e : Entity) (marked : List String) : Entity :=
  { e with header := { e.header with marked } }

/-- The entity with more fields marked, one after another. -/
def marking (e : Entity) (fields : List String) : Entity :=
  { e with header := fields.foldl Header.mark e.header }

theorem marking_eq_listing (e : Entity) (fields : List String) :
    e.marking fields = e.listing (fields.foldl Header.mark e.header).marked := by
  unfold marking listing
  rw [← Header.foldl_mark_eq]

end Entity

namespace Mapping

variable {catalog : Catalog} {type : TypeName} {s : Schema} {converters : Converters} {e : Entity}
  {record : Record} {f : Field}

/-! ### Selected fields -/

/-- A field that an entity writes back. -/
structure Selected (e : Entity) (f : Field) : Prop where
  writable : f.readOnly = false
  /-- The header's list names the field, or nothing. -/
  listed : e.header.marked = [] ∨ f.wire ∈ e.header.marked ∨ f.member ∈ e.header.marked
  held : e.read f ≠ .null

theorem selected_iff_sends : Selected e f ↔ Sends e f := by
  unfold Sends isWritable
  rw [Bool.and_eq_true, Header.isMarked_iff, Bool.not_eq_true']
  constructor
  · rintro ⟨hwritable, hlisted, hheld⟩
    exact ⟨⟨hwritable, hlisted⟩, hheld⟩
  · rintro ⟨⟨hwritable, hlisted⟩, hheld⟩
    exact ⟨hwritable, hlisted, hheld⟩

/-- What a member's value becomes on its way out: what the converter of its kind makes of it, or,
where there is none, an option code if the field asks for one and else the value itself. -/
def departure (converters : Converters) (f : Field) (value : Scalar) :
    Except ConversionError Scalar :=
  match converters.find? value.kind with
  | some converter => converter value
  | none => if f.isChoice then value.toChoice else .ok value

theorem outgoing_eq_departure (converters : Converters) (f : Field) (value : Scalar) :
    outgoing converters f value = departure converters f value := by
  unfold outgoing departure Converters.apply
  cases converters.find? value.kind with
  | none => simp [bind, Except.bind]
  | some converter =>
      dsimp only
      cases converter value with
      | error cause => rfl
      | ok out => simp [bind, Except.bind, Functor.map, Except.map]

/-! ### One field -/

/-- A selected field is written or fails as its value does on its way out. -/
theorem writeBack_of_selected (hselected : Selected e f) (record : Record) :
    writeBack s converters e record f
      = (located s f (departure converters f (e.read f))).map fun out =>
          record.set f.wire out.toValue := by
  obtain ⟨hwritable, hheld⟩ := selected_iff_sends.mp hselected
  have hskip : (!isWritable e.header f || (e.read f).isNull) = false := by
    simp [hwritable, Scalar.isNull, hheld]
  simp only [writeBack, hskip, outgoing_eq_departure]
  cases departure converters f (e.read f) with
  | error cause => rfl
  | ok out => rfl

/-- A field that is not selected is passed over. -/
theorem writeBack_of_not_selected (hselected : ¬Selected e f) (record : Record) :
    writeBack s converters e record f = .ok record := by
  have hskip : (!isWritable e.header f || (e.read f).isNull) = true := by
    by_contra hgoes
    refine hselected (selected_iff_sends.mpr ?_)
    simpa [Sends, Scalar.isNull] using hgoes
  simp only [writeBack, hskip, if_true]

theorem exists_writeBack_iff (record : Record) :
    (∃ record', writeBack s converters e record f = .ok record') ↔
      (Selected e f → ∃ out, departure converters f (e.read f) = .ok out) := by
  by_cases hselected : Selected e f
  · rw [writeBack_of_selected hselected]
    cases departure converters f (e.read f) with
    | error cause => simp [hselected, located, Except.mapError, Except.map]
    | ok out => simp [located, Except.mapError, Except.map]
  · simp [writeBack_of_not_selected hselected, hselected]

theorem writeBack_eq_error_iff {record : Record} {error : MappingError} :
    writeBack s converters e record f = .error error ↔
      Selected e f ∧ ∃ cause, departure converters f (e.read f) = .error cause ∧
        error = ⟨s.entity, f.wire, .conversion cause⟩ := by
  by_cases hselected : Selected e f
  · rw [writeBack_of_selected hselected]
    cases departure converters f (e.read f) with
    | error cause =>
        simp [hselected, located, Except.mapError, Except.map, eq_comm]
    | ok out => simp [located, Except.mapError, Except.map]
  · simp [writeBack_of_not_selected hselected, hselected]

/-! ### Whole records -/

/-- Fields can be written back when the selected ones among them can. -/
theorem exists_writeAll_iff {fields : List Field} :
    (∃ record', fields.foldlM (writeBack s converters e) record = .ok record') ↔
      ∀ f ∈ fields, Selected e f → ∃ out, departure converters f (e.read f) = .ok out :=
  exists_foldlM_eq_ok_iff
    (P := fun f => Selected e f → ∃ out, departure converters f (e.read f) = .ok out)
    fun _ r => exists_writeBack_iff r

/-- The lifecycle is written under its two names, as far as there is one. -/
theorem isSome_basis_iff (s : Schema) (h : Header) (name : String) :
    ((basis s h).get? name).isSome = true ↔
      h.state ≠ .unknown ∧ name = s.stateField ∨ h.status ≠ none ∧ name = s.statusField := by
  by_cases hstatus : h.status ≠ none ∧ name = s.statusField
  · obtain ⟨hsome, rfl⟩ := hstatus
    obtain ⟨status, hstatus⟩ := Option.ne_none_iff_exists'.mp hsome
    simp [basis, hstatus, Record.get?_set]
  · rw [basis_get?_of_no_status fun hsome hname => hstatus ⟨hsome, hname⟩]
    by_cases hstate : h.state ≠ .unknown ∧ name = s.stateField
    · simp [hstate]
    · simp [hstate, hstatus]

/-- What a record written for an entity is. -/
structure Written (s : Schema) (converters : Converters) (e : Entity) (record : Record) : Prop where
  entity : record.entity = s.entity
  id : record.id = e.header.id
  /-- The attributes are the lifecycle's and the selected fields'. -/
  names : ∀ name, (record.get? name).isSome = true ↔
    e.header.state ≠ .unknown ∧ name = s.stateField ∨
      e.header.status ≠ none ∧ name = s.statusField ∨
      ∃ f ∈ s.fields, Selected e f ∧ name = f.wire
  /-- A selected field has what its member's value became. -/
  members : ∀ f ∈ s.fields, Selected e f →
    ∃ out, departure converters f (e.read f) = .ok out ∧ record.get? f.wire = some out.toValue
  /-- Any other attribute has what the lifecycle put there. -/
  others : ∀ name, (∀ f ∈ s.fields, Selected e f → name ≠ f.wire) →
    record.get? name = (basis s e.header).get? name

theorem Sent.written (hsent : Sent s converters e record) : Written s converters e record where
  entity := hsent.entity
  id := hsent.id
  names := by
    intro name
    by_cases hfield : ∃ f ∈ s.fields, Selected e f ∧ name = f.wire
    · obtain ⟨f, hf, hselected, rfl⟩ := hfield
      obtain ⟨out, -, hget⟩ := hsent.members f hf (selected_iff_sends.mp hselected)
      exact iff_of_true (by rw [hget]; rfl) (.inr (.inr ⟨f, hf, hselected, rfl⟩))
    · have hothers := hsent.others name fun f hf hsends hname =>
        hfield ⟨f, hf, selected_iff_sends.mpr hsends, hname⟩
      rw [hothers, isSome_basis_iff]
      simp only [hfield, or_false]
  members := by
    intro f hf hselected
    rw [← outgoing_eq_departure]
    exact hsent.members f hf (selected_iff_sends.mp hselected)
  others := fun name hname => hsent.others name fun f hf hsends =>
    hname f hf (selected_iff_sends.mpr hsends)

theorem toRecord_mapped (hs : catalog.schema? type = some s) (converters : Converters)
    (e : Entity) : e.toRecord catalog converters type
      = s.fields.foldlM (writeBack s converters e) (basis s e.header) := by
  unfold Entity.toRecord
  rw [if_neg (Catalog.ne_dynamicType_of_schema? hs), hs]

/-- What is written hangs on the names in the header's list, and on nothing else about it. -/
theorem toRecord_listing (catalog : Catalog) (type : TypeName) (converters : Converters)
    {marked : List String} (hmarked : ∀ name, name ∈ marked ↔ name ∈ e.header.marked) :
    (e.listing marked).toRecord catalog converters type
      = e.toRecord catalog converters type := by
  have hempty : marked = [] ↔ e.header.marked = [] := by
    rw [List.eq_nil_iff_forall_not_mem, List.eq_nil_iff_forall_not_mem]
    exact forall_congr' fun name => not_congr (hmarked name)
  have hwritable : ∀ f, isWritable (e.listing marked).header f = isWritable e.header f := by
    intro f
    unfold isWritable
    congr 1
    rw [Bool.eq_iff_iff, Header.isMarked_iff, Header.isMarked_iff]
    show marked = [] ∨ f.wire ∈ marked ∨ f.member ∈ marked ↔ _
    rw [hempty, hmarked, hmarked]
  have hstep : ∀ (s : Schema) (f : Field) (r : Record),
      writeBack s converters (e.listing marked) r f = writeBack s converters e r f := by
    intro s f r
    unfold writeBack
    rw [hwritable]
    rfl
  unfold Entity.toRecord
  split
  · rfl
  · split
    · rfl
    · rename_i s _
      exact foldlM_congr fun f _ r => hstep s f r

/--
**Writing back sends the selected fields or fails as the first that cannot be sent.**

A failure names the type's entity and the attribute of the first selected field, in the order of the
table, whose value is refused on its way out.  If there is none, the record has the entity's
identity under the type's name, the attributes of its lifecycle and its selected fields' values, and
no other attribute.  The list of fields counts as a set, however its fields were marked.
-/
theorem toRecord_outcome (hs : catalog.schema? type = some s) (converters : Converters)
    (e : Entity) :
    (∀ error, e.toRecord catalog converters type = .error error ↔
      ∃ before f after cause, s.fields = before ++ f :: after ∧
        (∀ g ∈ before, Selected e g → ∃ out, departure converters g (e.read g) = .ok out) ∧
        Selected e f ∧ departure converters f (e.read f) = .error cause ∧
        error = ⟨s.entity, f.wire, .conversion cause⟩) ∧
    ((∃ record, e.toRecord catalog converters type = .ok record) ↔
      ∀ f ∈ s.fields, Selected e f → ∃ out, departure converters f (e.read f) = .ok out) ∧
    (∀ record, e.toRecord catalog converters type = .ok record →
      Written s converters e record) ∧
    (∀ marked, (∀ name, name ∈ marked ↔ name ∈ e.header.marked) →
      (e.listing marked).toRecord catalog converters type
        = e.toRecord catalog converters type) ∧
    ∀ fields fields', (∀ name, name ∈ fields ↔ name ∈ fields') →
      (e.marking fields).toRecord catalog converters type
        = (e.marking fields').toRecord catalog converters type := by
  refine ⟨fun error => ?_, ?_, fun record hwrite => (sent_of_toRecord hs hwrite).written,
    fun marked => toRecord_listing catalog type converters, fun fields fields' hsame => ?_⟩
  · rw [toRecord_mapped hs, foldlM_eq_error_iff]
    constructor
    · rintro ⟨before, f, after, r, hsplit, hbefore, hf⟩
      obtain ⟨hselected, cause, hcause, rfl⟩ := writeBack_eq_error_iff.mp hf
      exact ⟨before, f, after, cause, hsplit,
        exists_writeAll_iff.mp ⟨r, hbefore⟩, hselected, hcause, rfl⟩
    · rintro ⟨before, f, after, cause, hsplit, hbefore, hselected, hcause, rfl⟩
      obtain ⟨r, hr⟩ := exists_writeAll_iff.mpr hbefore
      exact ⟨before, f, after, r, hsplit, hr,
        writeBack_eq_error_iff.mpr ⟨hselected, cause, hcause, rfl⟩⟩
  · rw [toRecord_mapped hs]
    exact exists_writeAll_iff
  · rw [Entity.marking_eq_listing, Entity.marking_eq_listing]
    refine toRecord_listing (e := e.listing (fields'.foldl Header.mark e.header).marked) catalog
      type converters fun name => ?_
    show name ∈ (fields.foldl Header.mark e.header).marked
      ↔ name ∈ (fields'.foldl Header.mark e.header).marked
    rw [Header.mem_marked_foldl_mark, Header.mem_marked_foldl_mark, hsame]

/-! ### A parcel without a label -/

/-- A catalog of parcels: their number, which the store gives out, a label and a grade. -/
def parcels : Catalog where
  describe
    | "Parcel" =>
        { names := ["parcel"]
          declarations :=
            [.scalar ⟨"number", .plain .string⟩ "number" "trackingnumber", .readOnly,
              .scalar ⟨"label", .plain .string⟩ "label" "name",
              .scalar ⟨"grade", .plain .int32⟩ "grade" "gradecode", .choice] }
    | _ => {}

/-- The schema of parcels. -/
def parcelSchema : Schema :=
  .ofDeclarations parcels.names (parcels.names "Parcel") (parcels.describe "Parcel").declarations

/-- The number of a parcel. -/
def parcelNumber : Field :=
  { member := "number", wire := "trackingnumber", binding := .scalar ⟨"number", .plain .string⟩
    readOnly := true }

/-- The label of a parcel. -/
def parcelLabel : Field :=
  { member := "label", wire := "name", binding := .scalar ⟨"label", .plain .string⟩ }

/-- The grade of a parcel. -/
def parcelGrade : Field :=
  { member := "grade", wire := "gradecode", binding := .scalar ⟨"grade", .plain .int32⟩
    isChoice := true }

/-- No text goes out empty. -/
def noEmptyText : Converters :=
  Converters.empty.register .string fun value =>
    if value = .string "" then value.refuse "text" else .ok value

/-- A parcel with a label. -/
def parcel (label : String) : Entity where
  header := { state := .active }
  members := ({} : Members).set ⟨"label", .plain .string⟩ label

/-- An empty label fails a parcel.  Another one goes out, and so does the grade alone, however it is
marked. -/
theorem toRecord_outcome_parcel :
    ∃ record, parcels.schema? "Parcel" = some parcelSchema ∧
      (parcel "").toRecord parcels noEmptyText "Parcel"
        = .error ⟨"parcel", "name", .conversion ⟨"text", .string⟩⟩ ∧
      (parcel "box").toRecord parcels noEmptyText "Parcel" = .ok record ∧
      Written parcelSchema noEmptyText (parcel "box") record ∧
      ((parcel "").marking ["grade", "gradecode"]).toRecord parcels noEmptyText "Parcel"
        = ((parcel "").marking ["gradecode", "grade", "grade"]).toRecord parcels noEmptyText
          "Parcel" := by
  have hs : parcels.schema? "Parcel" = some parcelSchema := rfl
  have hfields : parcelSchema.fields = [parcelNumber] ++ parcelLabel :: [parcelGrade] := rfl
  have hnumber : ∀ e, ¬Selected e parcelNumber := fun e hselected => nomatch hselected.writable
  have hlabel : Selected (parcel "") parcelLabel := ⟨rfl, .inl rfl, nofun⟩
  obtain ⟨hfails, -, -, -, hmarking⟩ := toRecord_outcome hs noEmptyText (parcel "")
  obtain ⟨-, hwrites, hwritten, -, -⟩ := toRecord_outcome hs noEmptyText (parcel "box")
  have hgo : ∀ f ∈ parcelSchema.fields, Selected (parcel "box") f →
      ∃ out, departure noEmptyText f ((parcel "box").read f) = .ok out := by
    intro f hf hselected
    simp only [hfields, List.cons_append, List.nil_append, List.mem_cons, List.not_mem_nil,
      or_false] at hf
    rcases hf with rfl | rfl | rfl
    · exact absurd hselected (hnumber _)
    · exact ⟨.string "box", rfl⟩
    · exact ⟨.choice ⟨0⟩, rfl⟩
  obtain ⟨record, hrecord⟩ := hwrites.mpr hgo
  refine ⟨record, hs, ?_, hrecord, hwritten _ hrecord, hmarking _ _ fun name => ?_⟩
  · refine (hfails _).mpr ⟨[parcelNumber], parcelLabel, [parcelGrade], ⟨"text", .string⟩, hfields,
      ?_, hlabel, rfl, rfl⟩
    intro g hg hselected
    rw [List.mem_singleton.mp hg] at hselected
    exact absurd hselected (hnumber _)
  · simp only [List.mem_cons, List.not_mem_nil, or_false, or_self]
    exact or_comm

end Mapping

end TypedRecords
