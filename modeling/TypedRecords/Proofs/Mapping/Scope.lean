/-
What a reading looks at.

A reading asks a record for its identity and its entity's name, for the attributes of the lifecycle
and of the type's fields, and for what is flattened under the aliases of the type's links.  Records
that agree on all of that are read alike: they fail with one error, or give entities that differ in
nothing but the record in the header.

What links are filled from is made anew, and holds only what was asked for.  An extracted record has
no point in its attributes' names and a placeholder has one attribute, so in neither do two
attributes end alike under any alias, and from there on it takes no more than that the records are
the same but for the order of their attributes.
-/
import TypedRecords.Proofs.Mapping.Failure
import TypedRecords.Proofs.Record.Extraction

namespace TypedRecords

/-! ### Extracting from records that agree -/

namespace Record

variable {record record' : Record} {child joinName : String} {place : Nat}

theorem Reorders.refl (record : Record) : record.Reorders record := ⟨rfl, rfl, .refl _⟩

/-- Attributes that are apart agree, for none ends like another. -/
theorem ApartUnder.agrees (h : record.ApartUnder joinName) : record.AgreesUnder joinName := by
  intro p q v w hp hq hsegment
  obtain rfl := h p q v w hp hq hsegment
  exact Option.some.inj (hp.symm.trans hq)

/-- Two records have the same attributes under an alias. -/
def SameUnder (joinName : String) (record record' : Record) : Prop :=
  ∀ path, record.get? (joinName ++ "." ++ path) = record'.get? (joinName ++ "." ++ path)

theorem get?_extract_of_same (hsame : SameUnder (joinAlias child place) record record')
    (hagree : record.AgreesUnder (joinAlias child place)) {name : String} {value : Value}
    (h : (record.extract child place).get? name = some value) :
    (record'.extract child place).get? name = some value := by
  obtain ⟨path, hpath, rfl⟩ := (record.flattenedUnder_extract child place).only name value h
  have hflat := record'.flattenedUnder_extract child place
  obtain ⟨w, hw⟩ := Option.isSome_iff_exists.mp (hflat.every path value (hsame path ▸ hpath))
  obtain ⟨other, hother, hsegment⟩ := hflat.only _ w hw
  rw [hw, hagree path other value w hpath ((hsame other).trans hother) hsegment]

/-- Records that are the same under an alias have the same record joined there, if those of its
attributes that end alike agree. -/
theorem reorders_extract (hsame : SameUnder (joinAlias child place) record record')
    (hagree : record.AgreesUnder (joinAlias child place)) :
    (record.extract child place).Reorders (record'.extract child place) := by
  have hsame' : SameUnder (joinAlias child place) record' record := fun path => (hsame path).symm
  have hagree' : record'.AgreesUnder (joinAlias child place) := fun p q v w hp hq =>
    hagree p q v w ((hsame p).trans hp) ((hsame q).trans hq)
  refine ⟨rfl, rfl, Attributes.perm_entries_iff.mpr fun name => Option.ext fun value => ?_⟩
  exact ⟨get?_extract_of_same hsame hagree, get?_extract_of_same hsame' hagree'⟩

/-- No two attributes end alike under any alias. -/
def Tidy (record : Record) : Prop := ∀ joinName, record.ApartUnder joinName

theorem Undotted.tidy (h : record.Undotted) : record.Tidy := by
  intro joinName p q v w hp
  refine absurd ?_ (h (joinName ++ "." ++ p) (by rw [hp]; rfl))
  simp

theorem Reorders.isBlank_eq (h : record.Reorders record') : record.isBlank = record'.isBlank := by
  unfold isBlank Attributes.size
  rw [h.id, h.entries.length_eq]

end Record

theorem Mapping.tidy_placeholder (lookup : Reference) : (placeholder lookup).Tidy := by
  intro joinName p q v w hp hq _
  have hname : ∀ name value, (placeholder lookup).get? name = some value →
      name = identityAttribute lookup.entity := by
    intro name value h
    unfold placeholder at h
    rw [Record.get?_set] at h
    split at h
    · assumption
    · cases h
  exact Record.under_injective joinName ((hname _ v hp).trans (hname _ w hq).symm)

/-! ### Entities that are alike -/

/-- The header without its record. -/
def Header.withoutRecord (h : Header) : Header := { h with record := none }

namespace Entity

/-- Two entities are the same, but for the order in which the records they hold list their
attributes. -/
inductive Alike : Entity → Entity → Prop
  | intro {e e' : Entity} (header : e.header.withoutRecord = e'.header.withoutRecord)
      (record : Option.Rel Record.Reorders e.header.record e'.header.record)
      (members : e.members = e'.members)
      (links : ∀ slot, Option.Rel Alike (e.link? slot) (e'.link? slot)) : Alike e e'

/-- Two entities are the same, but for the record in the header. -/
structure AlikeButRecord (e e' : Entity) : Prop where
  header : e.header.withoutRecord = e'.header.withoutRecord
  members : e.members = e'.members
  links : ∀ slot, Option.Rel Alike (e.link? slot) (e'.link? slot)

variable {e e' : Entity}

theorem AlikeButRecord.alike (h : e.AlikeButRecord e')
    (hrecord : Option.Rel Record.Reorders e.header.record e'.header.record) : e.Alike e' :=
  .intro h.header hrecord h.members h.links

/-- An entity in a slot is smaller than the one that holds it. -/
theorem sizeOf_link?_lt {child : Entity} {slot : String} (h : e.link? slot = some child) :
    sizeOf child < sizeOf e := by
  obtain ⟨header, members, links⟩ := e
  obtain ⟨before, after, hlinks, -⟩ := List.lookup_eq_some_iff.mp h
  have hlinks : links = before ++ (slot, child) :: after := hlinks
  have hmem : (slot, child) ∈ links := by simp [hlinks]
  have hlt := List.sizeOf_lt_of_mem hmem
  rw [Prod.mk.sizeOf_spec] at hlt
  rw [mk.sizeOf_spec]
  omega

theorem Alike.refl (e : Entity) : e.Alike e := by
  have hrecord : Option.Rel Record.Reorders e.header.record e.header.record := by
    cases e.header.record with
    | none => exact .none
    | some record => exact .some (.refl record)
  refine .intro rfl hrecord rfl fun slot => ?_
  cases hlink : e.link? slot with
  | none => exact .none
  | some child => exact .some (Alike.refl child)
termination_by sizeOf e
decreasing_by exact sizeOf_link?_lt hlink

theorem alike_self (held : Option Entity) : Option.Rel Alike held held := by
  cases held with
  | none => exact .none
  | some e => exact .some (.refl e)

/-- One entity under two headers. -/
theorem alikeButRecord_of_header (e : Entity) {h h' : Header}
    (hheader : h.withoutRecord = h'.withoutRecord) :
    AlikeButRecord { e with header := h } { e with header := h' } :=
  ⟨hheader, rfl, fun _ => alike_self _⟩

theorem AlikeButRecord.setLink (h : e.AlikeButRecord e') (slot : String)
    {linked linked' : Option Entity} (hlinked : Option.Rel Alike linked linked') :
    (e.setLink slot linked).AlikeButRecord (e'.setLink slot linked') := by
  refine ⟨?_, ?_, fun other => ?_⟩
  · rw [header_setLink, header_setLink, h.header]
  · rw [members_setLink, members_setLink, h.members]
  · by_cases hother : other = slot
    · rw [hother, link?_setLink_self, link?_setLink_self]
      exact hlinked
    · rw [link?_setLink_of_ne hother, link?_setLink_of_ne hother]
      exact h.links other

end Entity

/-! ### What links are filled from -/

/-- Two links are filled from one record, but for the order of its attributes, and under no alias do
two of them end alike. -/
structure Linked.Alike (l l' : Linked) : Prop where
  record : l.record.Reorders l'.record
  tidy : l.record.Tidy
  parent : l.parent = l'.parent
  lookup : l.lookup = l'.lookup

/-- Two fields do the same, with links filled alike. -/
inductive Filling.Alike : Filling → Filling → Prop
  | untouched : Alike .untouched .untouched
  | scalar (slot : Slot) (value : Scalar) : Alike (.scalar slot value) (.scalar slot value)
  | link (slot : String) (linked : TypeName) {content content' : Option Linked}
      (h : Option.Rel Linked.Alike content content') :
      Alike (.link slot linked content) (.link slot linked content')

namespace Mapping

variable {nested : Reader} {vacant : Vacancy} {catalog : Catalog} {type : TypeName} {s : Schema}
  {converters : Converters} {record record' : Record} {place : Nat} {f : Field} {e e' : Entity}

theorem settle_alike {l l' : Linked} (hl : l.Alike l') (he : e.Alike e') :
    (settle l e).Alike (settle l' e') := by
  cases he with
  | intro header record members links =>
      refine .intro ?_ record members links
      have hsettle : ∀ (l : Linked) (e : Entity), (settle l e).header.withoutRecord
          = { e.header.withoutRecord with
              id := l.parent.getD e.header.withoutRecord.id
              entity := if e.header.withoutRecord.entity = "" then l.record.entity
                else e.header.withoutRecord.entity
              lookup := l.lookup } := fun _ _ => rfl
      rw [hsettle, hsettle, header, hl.parent, hl.lookup, hl.record.entity]

/-! ### Records that agree -/

/-- Two records agree on all that a schema names. -/
structure Agrees (s : Schema) (record record' : Record) : Prop where
  id : record.id = record'.id
  entity : record.entity = record'.entity
  state : record.get? s.stateField = record'.get? s.stateField
  status : record.get? s.statusField = record'.get? s.statusField
  fields : ∀ f ∈ s.fields, record.get? f.wire = record'.get? f.wire
  /-- They are the same under every alias that a link's entity may go by. -/
  joined : ∀ link ∈ s.links, ∀ place, 0 < place →
    Record.SameUnder (joinAlias link.childEntity place) record record'
  /-- No two attributes under such an alias end alike. -/
  apart : ∀ link ∈ s.links, ∀ place, 0 < place →
    record.ApartUnder (joinAlias link.childEntity place)

theorem agrees_of_reorders (h : record.Reorders record') (htidy : record.Tidy) :
    Agrees s record record' where
  id := h.id
  entity := h.entity
  state := h.get?_eq _
  status := h.get?_eq _
  fields _ _ := h.get?_eq _
  joined _ _ _ _ _ := h.get?_eq _
  apart _ _ _ _ := htidy _

/-- A reading starts from the identity, the entity's name and the lifecycle. -/
theorem started_alike (catalog : Catalog) (type : TypeName) (hid : record.id = record'.id)
    (hentity : record.entity = record'.entity) {stateField statusField : String}
    (hstate : record.get? stateField = record'.get? stateField)
    (hstatus : record.get? statusField = record'.get? statusField) :
    (started catalog type stateField statusField record).AlikeButRecord
      (started catalog type stateField statusField record') := by
  refine Entity.alikeButRecord_of_header _ ?_
  simp only [header, Header.withoutRecord, hid, hentity, hstate, hstatus]

theorem mem_links_of_findLink? {wire : String} {target : Option String} {link : Link}
    (h : s.findLink? wire target = some link) : link ∈ s.links :=
  (List.mem_filter.mp (Schema.mem_linksFrom_of_findLink? h)).1

theorem content_alike (hagree : Agrees s record record') (hplace : 0 < place) (value : Scalar) :
    Corresponds (Option.Rel Linked.Alike) (content s record place f value)
      (content s record' place f value) := by
  unfold content
  by_cases heager : f.eager = true
  · rw [if_pos heager, if_pos heager]
    cases value with
    | null => exact .ok .none
    | reference r => exact .ok (.some ⟨.refl _, tidy_placeholder r, rfl, rfl⟩)
    | _ => exact .error _
  · rw [if_neg heager, if_neg heager]
    unfold joined
    by_cases hnull : value.isNull = true
    · rw [if_pos hnull, if_pos hnull]
      exact .ok .none
    · rw [if_neg hnull, if_neg hnull]
      cases hfind : s.findLink? f.wire ((lookup? value).map (·.entity)) with
      | none =>
          simp only [hfind]
          exact .error _
      | some link =>
          simp only [hfind]
          have hlink := mem_links_of_findLink? hfind
          have hextract := Record.reorders_extract (hagree.joined link hlink place hplace)
            (hagree.apart link hlink place hplace).agrees
          exact .ok (.some ⟨hextract, (Record.undotted_extract _ _ _).tidy, congrArg some hagree.id,
            rfl⟩)

theorem filling_alike (hagree : Agrees s record record') (hf : f ∈ s.fields)
    (hplace : 0 < place) :
    Corresponds Filling.Alike (filling s converters record place f)
      (filling s converters record' place f) := by
  have hget := hagree.fields f hf
  cases hraw : record.get? f.wire with
  | none =>
      rw [filling_of_absent hraw, filling_of_absent (hget.symm.trans hraw)]
      exact .ok .untouched
  | some raw =>
      have hraw' := hget.symm.trans hraw
      cases hvalue : incoming converters f raw with
      | error cause =>
          rw [filling_of_refused hraw hvalue, filling_of_refused hraw' hvalue]
          exact .error _
      | ok value =>
          cases hbinding : f.binding with
          | scalar slot =>
              rw [filling_of_scalar hbinding hraw hvalue, filling_of_scalar hbinding hraw' hvalue]
              exact .ok (.scalar slot value)
          | link slot linked =>
              rw [filling_of_link hbinding hraw hvalue, filling_of_link hbinding hraw' hvalue]
              exact (content_alike hagree hplace value).map fun _ _ h => .link slot linked h

/-- **Every field does the same for both records.** -/
theorem fillings_alike (hagree : Agrees s record record') :
    ∀ {fields : List Field} {place : Nat}, (∀ f ∈ fields, f ∈ s.fields) → 0 < place →
      List.Forall₂ (fun step step' => step.1 = step'.1 ∧
          Corresponds Filling.Alike step.2 step'.2)
        (fillings s converters record place fields)
        (fillings s converters record' place fields) := by
  intro fields
  induction fields with
  | nil => exact fun _ _ => .nil
  | cons f rest ih =>
      intro place hfields hplace
      obtain ⟨hf, hrest⟩ := List.forall_mem_cons.mp hfields
      rw [fillings, fillings, hagree.fields f hf]
      refine .cons ⟨rfl, filling_alike hagree hf hplace⟩ (ih hrest ?_)
      split
      · omega
      · exact hplace

/-! ### Readings -/

/-- A nested reading that does not see the order of the attributes. -/
def Blind (nested : Reader) : Prop :=
  ∀ linked record record', record.Reorders record' → record.Tidy →
    Corresponds Entity.Alike (nested linked record) (nested linked record')

theorem fill_alike (hnested : Blind nested) (he : e.AlikeButRecord e')
    {step step' : Field × Except MappingError Filling} (hfield : step.1 = step'.1)
    (hstep : Corresponds Filling.Alike step.2 step'.2) :
    Corresponds Entity.AlikeButRecord (fill nested vacant s e step)
      (fill nested vacant s e' step') := by
  unfold fill
  refine hstep.bind fun filling filling' hfilling => ?_
  cases hfilling with
  | untouched => exact .ok he
  | scalar slot value =>
      dsimp only
      rw [hfield, he.members]
      cases located s step'.1 (e'.members.write slot value) with
      | error error => exact .error error
      | ok members => exact .ok ⟨he.header, rfl, he.links⟩
  | link slot linked hcontent =>
      cases hcontent with
      | none => exact .ok (he.setLink slot (Entity.alike_self _))
      | some hl =>
          refine (hnested linked _ _ hl.record hl.tidy).bind fun child child' hchild => ?_
          exact .ok (he.setLink slot (.some (settle_alike hl hchild)))

theorem fillAll_alike (hnested : Blind nested) (hagree : Agrees s record record') :
    Corresponds Entity.AlikeButRecord
      (fillAll nested vacant s converters record 1 s.fields
        (started catalog type s.stateField s.statusField record))
      (fillAll nested vacant s converters record' 1 s.fields
        (started catalog type s.stateField s.statusField record')) :=
  .foldlM (fun _ _ _ _ he hstep => fill_alike hnested he hstep.1 hstep.2)
    (fillings_alike hagree (fun _ h => h) Nat.one_pos)
    (started_alike catalog type hagree.id hagree.entity hagree.state hagree.status)

/-- **Readings do not see the order of the attributes**, however deep. -/
theorem blind_readWithin (catalog : Catalog) (converters : Converters) :
    ∀ depth, Blind (readWithin catalog converters depth) := by
  intro depth
  induction depth with
  | zero =>
      intro type record record' hsame _
      unfold readWithin
      rw [hsame.entity]
      exact .error _
  | succ depth ih =>
      intro type record record' hsame htidy
      have hrecords : Option.Rel Record.Reorders (some record) (some record') := .some hsame
      show Corresponds _ (readWith _ _ _ _ _) (readWith _ _ _ _ _)
      cases hblank : record.isBlank with
      | true =>
          rw [readWith_blank hblank, readWith_blank (hsame.isBlank_eq ▸ hblank)]
          exact .ok (.refl _)
      | false =>
          have hblank' : record'.isBlank = false := hsame.isBlank_eq ▸ hblank
          cases hs : catalog.schema? type with
          | none =>
              rw [readWith_unmapped hs hblank, readWith_unmapped hs hblank']
              have hstarted := started_alike catalog type hsame.id hsame.entity
                (hsame.get?_eq defaultStateField) (hsame.get?_eq defaultStatusField)
              exact .ok (hstarted.alike hrecords)
          | some s =>
              rw [readWith_mapped hs hblank, readWith_mapped hs hblank']
              refine (fillAll_alike ih (agrees_of_reorders hsame htidy)).strengthen ?_
              intro e e' he he' halike
              refine halike.alike ?_
              rw [fillAll_header he, fillAll_header he']
              exact hrecords

/-- A slot keeps the value that it has in a fresh entity when no field of it has an attribute. -/
theorem get_of_absent (hs : catalog.schema? type = some s) (hblank : record.isBlank = false)
    (hread : Entity.ofRecord catalog converters type record = .ok e) {slot : Slot}
    (habsent : ∀ f ∈ s.fields, f.binding = .scalar slot → record.get? f.wire = none) :
    e.members.get slot = (catalog.fresh type).members.get slot := by
  rw [ofRecord_mapped hs hblank] at hread
  rw [fillAll_get habsent hread, members_started]

/--
**A reading looks only at what the schema names.**

Two records that agree on that fail with the same error or give entities that are the same but for
the record in the header, which is the one that was read.  A slot that no attribute fills keeps the
value that it has in the type's fresh entity.  A failure is that of the first field that cannot be
read, and names the type's entity and the field's attribute unless a linked record failed.
-/
theorem ofRecord_sees_schema (hs : catalog.schema? type = some s) (hblank : record.isBlank = false)
    (hblank' : record'.isBlank = false) (hagree : Agrees s record record')
    (converters : Converters) :
    Corresponds (fun e e' => e.AlikeButRecord e' ∧ e.header.record = some record ∧
        e'.header.record = some record')
      (Entity.ofRecord catalog converters type record)
      (Entity.ofRecord catalog converters type record') ∧
    (∀ e, Entity.ofRecord catalog converters type record = .ok e →
      ∀ slot, (∀ f ∈ s.fields, f.binding = .scalar slot → record.get? f.wire = none) →
        e.members.get slot = (catalog.fresh type).members.get slot) ∧
    ∀ error, Entity.ofRecord catalog converters type record = .error error ↔
      FailsFirst (readWithin catalog converters (depthLimit - 1)) s converters record 1 s.fields
        error := by
  refine ⟨?_, fun e hread slot => get_of_absent hs hblank hread,
    fun error => ofRecord_eq_error_iff hs hblank⟩
  have halike : Corresponds Entity.AlikeButRecord
      (Entity.ofRecord catalog converters type record)
      (Entity.ofRecord catalog converters type record') := by
    rw [ofRecord_mapped hs hblank, ofRecord_mapped hs hblank']
    exact fillAll_alike (blind_readWithin catalog converters _) hagree
  exact halike.strengthen fun e e' he he' h =>
    ⟨h, record_of_ofRecord hs hblank he, record_of_ofRecord hs hblank' he'⟩

/-! ### An account with a credit limit -/

/-- The billed account with an attribute that no field of an account names. -/
def credited : Record := billed.set "creditlimit" (.int32 100)

theorem tidy_billed : billed.Tidy := by
  have hname : ∀ name v, billed.get? name = some v → '.' ∈ name.toList →
      name = "contact2.firstname" := by
    intro name v h hpoint
    simp only [billed, Record.get?_set] at h
    split at h
    · assumption
    · split at h
      · rename_i hname
        rw [hname] at hpoint
        exact absurd hpoint (by decide)
      · split at h
        · rename_i hname
          rw [hname] at hpoint
          exact absurd hpoint (by decide)
        · cases h
  intro joinName p q v w hp hq _
  have hp := hname _ v hp (by simp)
  have hq := hname _ w hq (by simp)
  exact Record.under_injective joinName (hp.trans hq.symm)

theorem agrees_credited : Agrees clientSchema billed credited := by
  have hsame : ∀ name, name ≠ "creditlimit" → billed.get? name = credited.get? name :=
    fun name hname => ((Record.get?_set ..).trans (if_neg hname)).symm
  refine ⟨rfl, rfl, rfl, rfl, ?_, ?_, fun _ _ _ _ => tidy_billed _⟩
  · intro f hf
    have hfields : clientSchema.fields = [primaryContact, billingContact] := rfl
    rw [hfields] at hf
    rcases List.mem_cons.mp hf with rfl | hf
    · rfl
    · obtain rfl := List.mem_singleton.mp hf
      rfl
  · intro link _ place _ path
    refine hsame _ fun hname => ?_
    have hpoint : '.' ∈ (joinAlias link.childEntity place ++ "." ++ path).toList := by simp
    rw [hname] at hpoint
    exact absurd hpoint (by decide)

/-- No lookup comes in. -/
def noReferences : Converters :=
  Converters.empty.register .reference fun value => value.refuse "text"

/-- The credit limit changes nothing about the contacts.  When lookups are refused, the account fails
as its first contact that has one. -/
theorem ofRecord_sees_schema_credited :
    ∃ e e', clients.schema? "Account" = some clientSchema ∧
      Agrees clientSchema billed credited ∧
      Entity.ofRecord clients .empty "Account" billed = .ok e ∧
      Entity.ofRecord clients .empty "Account" credited = .ok e' ∧ e.AlikeButRecord e' ∧
      Entity.ofRecord clients noReferences "Account" billed
        = .error ⟨"account", "billingcontactid", .conversion ⟨"text", .reference⟩⟩ := by
  have hs : clients.schema? "Account" = some clientSchema := rfl
  obtain ⟨halike, -, -⟩ := ofRecord_sees_schema hs rfl rfl agrees_credited .empty
  obtain ⟨-, -, hfails⟩ := ofRecord_sees_schema hs rfl rfl agrees_credited noReferences
  have hread : ∃ e, Entity.ofRecord clients .empty "Account" billed = .ok e := ⟨_, rfl⟩
  have hread' : ∃ e', Entity.ofRecord clients .empty "Account" credited = .ok e' := ⟨_, rfl⟩
  obtain ⟨e, hread⟩ := hread
  obtain ⟨e', hread'⟩ := hread'
  have hsame : e.AlikeButRecord e' := by
    rw [hread, hread'] at halike
    cases halike with
    | ok h => exact h.1
  refine ⟨e, e', hs, agrees_credited, hread, hread', hsame,
    (hfails _).mpr ⟨[primaryContact], billingContact, [], rfl, ?_, .own (.refused rfl rfl)⟩⟩
  -- the primary contact is null, and null comes in
  intro first g rest hsplit raw hraw
  cases first with
  | nil =>
      obtain ⟨rfl, -⟩ := List.cons.inj hsplit
      obtain rfl : Value.null = raw := Option.some.inj hraw
      exact ⟨.null, rfl, none, rfl, nofun⟩
  | cons h first => simp at hsplit

end Mapping

end TypedRecords
