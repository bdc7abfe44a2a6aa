/-
What becomes of a lookup that is read and written back.

A link is written back as the lookup that it was read from, and only a lookup is remembered.  A
joined link takes any other value that is not null as well; then nothing but the parent's identity,
which every joined entity takes over, is left to write, under the name of the field's first target or
one that a fresh linked entity has of its own.  So a lookup comes back as it was, and a bare identity
comes back only if it is the record's own.

Fields may share a member.  What the member holds then is what the last of them put there that the
record has an attribute for, and each of them writes that.
-/
import TypedRecords.Proofs.Mapping.JoinPlace
import TypedRecords.Proofs.Mapping.RoundTrip

namespace TypedRecords

namespace Mapping

variable {catalog : Catalog} {s : Schema} {record record' : Record} {f g : Field}
  {before after : List Field} {slot : String} {type linked : TypeName} {place : Nat}
  {c c' e : Entity} {raw : Value} {x : Identity}

/-! ### The field that decides -/

/-- The last field of a member that a record has an attribute for, with the fields before and after
it. -/
structure Decides (record : Record) (fields : List Field) (f : Field) (before : List Field)
    (g : Field) (after : List Field) : Prop where
  split : fields = before ++ g :: after
  place : g.binding.place = f.binding.place
  present : (record.get? g.wire).isSome = true
  last : ∀ h ∈ after, h.binding.place = f.binding.place → record.get? h.wire = none

theorem exists_decides {fields : List Field}
    (h : ∃ g ∈ fields, g.binding.place = f.binding.place ∧ (record.get? g.wire).isSome = true) :
    ∃ before g after, Decides record fields f before g after := by
  induction fields with
  | nil =>
      obtain ⟨g, hg, -⟩ := h
      cases hg
  | cons first rest ih =>
      by_cases hlater : ∃ g ∈ rest, g.binding.place = f.binding.place ∧
          (record.get? g.wire).isSome = true
      · obtain ⟨before, g, after, hdecides⟩ := ih hlater
        exact ⟨first :: before, g, after, congrArg (first :: ·) hdecides.split, hdecides.place,
          hdecides.present, hdecides.last⟩
      · obtain ⟨g, hg, hplace, hsome⟩ := h
        rcases List.mem_cons.mp hg with rfl | hg
        · refine ⟨[], g, rest, rfl, hplace, hsome, ?_⟩
          intro other hother hsame
          by_contra hne
          exact hlater ⟨other, hother, hsame, Option.isSome_iff_ne_none.mpr hne⟩
        · exact absurd ⟨g, hg, hplace, hsome⟩ hlater

/-- A member of one field is decided by that field. -/
theorem Decides.eq_of_own {fields : List Field} (hdecides : Decides record fields f before g after)
    (hown : ∀ h ∈ fields, h.binding.place = f.binding.place → h = f) : g = f :=
  hown g (by simp [hdecides.split]) hdecides.place

/-! ### Reading one link -/

/-- The name that a linked entity goes by when it is read from a record: the record's, unless there is
nothing to read and a fresh entity has a name of its own. -/
def goesBy (catalog : Catalog) (linked : TypeName) (content : Record) : String :=
  if content.isBlank ∧ (catalog.fresh linked).header.entity ≠ "" then
    (catalog.fresh linked).header.entity
  else content.entity

/-- The lookup that a link of a type is written back as, from the value that its field, as the
`place`-th joined one if it is joined, was read from. -/
def kept (catalog : Catalog) (type : TypeName) (record : Record) (place : Nat) (f : Field)
    (raw : Value) : Option Reference :=
  match f.binding, raw with
  | .scalar _, _ => none
  | .link slot linked, .null => lookup? (Entity.linkScalar (catalog.vacant type slot linked))
  | .link _ _, .reference r => some r
  | .link _ linked, _ =>
    if record.id.isNil then none
    else some ⟨goesBy catalog linked (record.extract (f.targets.headD "") place), record.id⟩

theorem kept_null (hbinding : f.binding = .link slot linked) :
    kept catalog type record place f .null
      = lookup? (Entity.linkScalar (catalog.vacant type slot linked)) := by
  simp only [kept, hbinding]

theorem kept_reference (hbinding : f.binding = .link slot linked) (r : Reference) :
    kept catalog type record place f (.reference r) = some r := by
  simp only [kept, hbinding]

theorem kept_bare (hbinding : f.binding = .link slot linked) (hnull : raw ≠ .null)
    (hreference : ∀ r, raw ≠ .reference r) :
    kept catalog type record place f raw
      = if record.id.isNil then none
        else some ⟨goesBy catalog linked (record.extract (f.targets.headD "") place),
          record.id⟩ := by
  cases raw with
  | null => exact absurd rfl hnull
  | reference r => exact absurd rfl (hreference r)
  | _ => simp only [kept, hbinding]

/-- A link reads as the lookup in it, or as null. -/
theorem linkScalar_eq_lookup? (held : Option Entity) :
    Entity.linkScalar held = ((lookup? (Entity.linkScalar held)).map Scalar.reference).getD .null := by
  by_cases hnull : Entity.linkScalar held = .null
  · rw [hnull]
    rfl
  · obtain ⟨r, hr⟩ := reference_of_linkScalar hnull
    rw [hr]
    rfl

/-- Null comes in as null, a lookup as itself, and any other value as neither. -/
theorem incoming_cases {value : Scalar} (h : incoming .empty f raw = .ok value) :
    (raw = .null ∧ value = .null) ∨ (∃ r, raw = .reference r ∧ value = .reference r) ∨
      ((raw ≠ .null ∧ ∀ r, raw ≠ .reference r) ∧ value.isNull = false ∧ lookup? value = none) := by
  have hcoded : f.isChoice = true → Scalar.ofValue raw ≠ .null → ∃ c, value = .choice c := by
    intro hchoice hnull
    rw [incoming_empty, hchoice] at h
    exact Scalar.choice_of_toChoice hnull h
  have hplain : f.isChoice = false → value = Scalar.ofValue raw := by
    intro hchoice
    rw [incoming_empty, hchoice] at h
    exact (Except.ok.inj h).symm
  cases raw with
  | null =>
      rw [incoming_empty] at h
      exact .inl ⟨rfl, Scalar.sent_null h⟩
  | reference r => exact .inr (.inl ⟨r, rfl, incoming_reference h⟩)
  | _ =>
      refine .inr (.inr ⟨⟨nofun, nofun⟩, ?_⟩)
      cases hchoice : f.isChoice with
      | true =>
          obtain ⟨c, rfl⟩ := hcoded hchoice nofun
          exact ⟨rfl, rfl⟩
      | false =>
          rw [hplain hchoice]
          exact ⟨rfl, rfl⟩

/-- An entity read from a record goes by the record's entity, or by a fresh one's if there is nothing
to read. -/
theorem entity_of_readWithin {converters : Converters} {depth : Nat}
    (h : readWithin catalog converters depth type record = .ok e) :
    e.header.entity
      = if record.isBlank then (catalog.fresh type).header.entity else record.entity := by
  cases depth with
  | zero => cases h
  | succ depth =>
      have h : readWith (readWithin catalog converters depth) catalog converters type record
          = .ok e := h
      by_cases hblank : record.isBlank = true
      · rw [readWith_blank hblank] at h
        cases h
        rw [if_pos hblank]
      · rw [if_neg hblank]
        cases hs : catalog.schema? type with
        | none =>
            rw [readWith_unmapped hs (by simpa using hblank)] at h
            cases h
            rfl
        | some s =>
            rw [readWith_mapped hs (by simpa using hblank)] at h
            rw [fillAll_header h]
            rfl

/-- The content of a link that is read from anything but a lookup. -/
theorem content_bare (hb : s.Built) (hg : g ∈ s.fields) (hlink : g.isLink = true) {value : Scalar}
    (hnull : value.isNull = false) (hlookup : lookup? value = none) {source : Option Linked}
    (h : content s record place g value = .ok source) :
    source
      = some { record := record.extract (g.targets.headD "") place, parent := some record.id } := by
  unfold content at h
  by_cases heager : g.eager = true
  · rw [if_pos heager] at h
    cases value with
    | null => cases hnull
    | reference r => cases hlookup
    | _ => cases h
  · rw [if_neg heager] at h
    simp only [joined, hnull, hlookup, Option.map_none] at h
    cases htargets : g.targets with
    | nil =>
        have hfind : s.findLink? g.wire none = none := by
          rw [hb.findLink?_none hg hlink, htargets]
          rfl
        rw [hfind] at h
        cases h
    | cons target rest =>
        obtain ⟨link, hchild, hfind, -⟩ := hb.findLink?_first hg hlink htargets
        rw [hfind] at h
        cases h
        rw [hchild]
        rfl

/-- A linked entity that came through no lookup reads as one to its parent's identity. -/
theorem linkScalar_settle_bare {depth : Nat} {child : Entity} {id : Identity}
    (hchild : readWithin catalog .empty depth linked record = .ok child) :
    Entity.linkScalar (some (settle { record, parent := some id } child))
      = if id.isNil then .null else .reference ⟨goesBy catalog linked record, id⟩ := by
  have hentity : (settle { record, parent := some id } child).header.entity
      = goesBy catalog linked record := by
    show (if child.header.entity = "" then record.entity else child.header.entity) = _
    rw [entity_of_readWithin hchild, goesBy]
    by_cases hblank : record.isBlank = true
    · by_cases hname : (catalog.fresh linked).header.entity = ""
      · simp [hblank, hname]
      · simp [hblank, hname]
    · by_cases hname : record.entity = ""
      · simp [hblank, hname]
      · simp [hblank]
  show (if id.isNil then Scalar.null else .reference ⟨(settle _ child).header.entity, id⟩) = _
  rw [hentity]

/-- What a link holds once its content is read. -/
inductive Settled (nested : Reader) (vacant : Option Entity) (linked : TypeName) :
    Option Linked → Option Entity → Prop
  /-- There is no content. -/
  | cleared : Settled nested vacant linked none vacant
  /-- The content's record is read as the linked type. -/
  | read {source : Linked} {child : Entity} (h : nested linked source.record = .ok child) :
      Settled nested vacant linked (some source) (some (settle source child))

theorem Filled.settled {nested : Reader} {vacant : Vacancy}
    (hbinding : g.binding = .link slot linked) (hget : record.get? g.wire = some raw)
    (hfilled : Filled nested vacant s .empty record place g c c') :
    ∃ value source, incoming .empty g raw = .ok value ∧
      content s record place g value = .ok source ∧
      Settled nested (vacant slot linked) linked source (c'.link? slot) := by
  cases hfilled with
  | untouched habsent => cases habsent.symm.trans hget
  | scalar hscalar _ _ _ => cases hscalar.symm.trans hbinding
  | cleared hcleared hraw hvalue hcontent =>
      cases hraw.symm.trans hget
      cases hcleared.symm.trans hbinding
      rw [Entity.link?_setLink_self]
      exact ⟨_, _, hvalue, hcontent, .cleared⟩
  | linked hlinked hraw hvalue hcontent hchild =>
      cases hraw.symm.trans hget
      cases hlinked.symm.trans hbinding
      rw [Entity.link?_setLink_self]
      exact ⟨_, _, hvalue, hcontent, .read hchild⟩

/-- **A step that reads a link leaves the lookup that is written back for it.** -/
theorem Filled.linkScalar_kept {depth : Nat} (hb : s.Built) (hg : g ∈ s.fields)
    (hbinding : g.binding = .link slot linked) (hget : record.get? g.wire = some raw)
    (hfilled : Filled (readWithin catalog .empty depth) (catalog.vacant type) s .empty record place g
      c c') :
    Entity.linkScalar (c'.link? slot)
      = ((kept catalog type record place g raw).map Scalar.reference).getD .null := by
  obtain ⟨value, source, hvalue, hcontent, hsettled⟩ := hfilled.settled hbinding hget
  generalize c'.link? slot = held at hsettled ⊢
  rcases incoming_cases hvalue with ⟨rfl, rfl⟩ | ⟨r, rfl, rfl⟩ | ⟨⟨hnull, hreference⟩, hbare⟩
  · have hnone : source = none := by
      unfold content at hcontent
      split at hcontent
      · exact (Except.ok.inj hcontent).symm
      · exact (Except.ok.inj hcontent).symm
    subst hnone
    cases hsettled
    rw [kept_null hbinding]
    exact linkScalar_eq_lookup? _
  · obtain ⟨l, rfl, hlookup⟩ := lookup_of_content hcontent
    rw [kept_reference hbinding]
    cases hsettled with
    | read hchild => exact linkScalar_settle hlookup _
  · obtain rfl := content_bare hb hg (Schema.isLink_of_binding hbinding) hbare.1 hbare.2 hcontent
    cases hsettled with
    | read hchild =>
        rw [linkScalar_settle_bare hchild, kept_bare hbinding hnull hreference]
        by_cases hnil : record.id.isNil = true
        · rw [if_pos hnil, if_pos hnil]
          rfl
        · rw [if_neg hnil, if_neg hnil]
          rfl

theorem link_of_place {binding : Binding} (h : binding.place = .inr slot) :
    ∃ linked, binding = .link slot linked := by
  cases binding with
  | scalar _ => cases h
  | link other linked =>
      cases h
      exact ⟨linked, rfl⟩

/-- Reading a record leaves the lookup that its deciding field left. -/
theorem linkScalar_of_ofRecord (hs : catalog.schema? type = some s)
    (hbinding : f.binding = .link slot linked)
    (hdecides : Decides record s.fields f before g after) (hget : record.get? g.wire = some raw)
    (hread : Entity.ofRecord catalog .empty type record = .ok e) :
    Entity.linkScalar (e.link? slot)
      = ((kept catalog type record (met record before + 1) g raw).map
          Scalar.reference).getD .null := by
  obtain ⟨hsplit, hplace, hsome, hlast⟩ := hdecides
  have hg : g ∈ s.fields := by simp [hsplit]
  rw [hbinding] at hplace hlast
  obtain ⟨linked', hlinked⟩ := link_of_place hplace
  rw [ofRecord_mapped hs (Record.isBlank_of_get? hsome), hsplit] at hread
  obtain ⟨c, c', next, -, hfilled, hafter⟩ := fillAll_split hread
  have hkept : e.link? slot = c'.link? slot := by
    refine fillAll_keeps (P := fun d => d.link? slot = c'.link? slot) ?_ rfl hafter
    intro h hh place d d' hd hstep
    by_cases hsame : h.binding.place = .inr slot
    · rw [hstep.eq_of_absent (hlast h hh hsame)]
      exact hd
    · exact (hstep.link?_of_ne hsame).trans hd
  rw [hkept, Nat.add_comm]
  exact hfilled.linkScalar_kept (Catalog.built_of_schema? hs) hg hlinked hget

/-! ### What a link is written back as -/

/-- An attribute with an identity says nothing about the lifecycle. -/
theorem basis_get?_of_identity {fresh : Header} {name : String}
    (hx : (record.get? name).bind Value.asIdentity? = some x) :
    (basis s (header fresh s.stateField s.statusField record)).get? name = none := by
  have hcode : (record.get? name).bind Value.asInt32? = none := by
    obtain ⟨raw, hraw, hid⟩ := Option.bind_eq_some_iff.mp hx
    rw [hraw]
    cases raw with
    | guid id => rfl
    | reference r => rfl
    | _ => cases hid
  have hstatus : (header fresh s.stateField s.statusField record).status ≠ none →
      name ≠ s.statusField := by
    rintro hsome rfl
    exact hsome hcode
  rw [basis_get?_of_no_status hstatus, if_neg]
  rintro ⟨hknown, rfl⟩
  refine hknown ?_
  show (((record.get? s.stateField).bind Value.asInt32?).bind Lifecycle.ofCode?).getD .unknown = _
  rw [hcode]
  rfl

/-- A link is written as it reads, if the lifecycle leaves its attribute alone. -/
theorem Sent.get?_link (hb : s.Built) (hsent : Sent s .empty e record') (hf : f ∈ s.fields)
    (hbinding : f.binding = .link slot linked) (hwritable : isWritable e.header f = true)
    (hbasis : (basis s e.header).get? f.wire = none) {lookup : Option Reference}
    (hlookup : Entity.linkScalar (e.link? slot) = (lookup.map Scalar.reference).getD .null) :
    record'.get? f.wire = lookup.map Value.reference := by
  have hread : e.read f = (lookup.map Scalar.reference).getD .null := by
    unfold Entity.read
    rw [hbinding]
    exact hlookup
  cases lookup with
  | none =>
      rw [hsent.get?_of_not_sends hb hf fun hsends => hsends.2 hread, hbasis]
      rfl
  | some r =>
      have hnull : e.read f ≠ .null := by
        rw [hread]
        nofun
      obtain ⟨out, hout, hget⟩ := hsent.members f hf ⟨hwritable, hnull⟩
      obtain ⟨r', hr', rfl⟩ := outgoing_link hbinding hnull hout
      cases hread.symm.trans hr'
      exact hget

/-- A record has a lookup to an identity under a name. -/
def PointsAt (record : Record) (name : String) (x : Identity) : Prop :=
  ∃ r, record.get? name = some (.reference r) ∧ r.id = x

theorem pointsAt_iff {name : String} {marked : Bool} {lookup : Option Reference}
    (h : record.get? name = if marked then lookup.map .reference else none) :
    PointsAt record name x ↔ marked = true ∧ lookup.map Reference.id = some x := by
  unfold PointsAt
  rw [h]
  cases marked with
  | false => simp
  | true =>
      cases lookup with
      | none => simp
      | some r => simp

/-- What comes back from a value with an identity: a lookup does, and any other if it is the
record's own. -/
theorem kept_id_iff (hbinding : f.binding = .link slot linked) (hx : raw.asIdentity? = some x) :
    (kept catalog type record place f raw).map Reference.id = some x ↔
      (∃ r, raw = .reference r) ∨ record.id = x ∧ x.isNil = false := by
  cases raw with
  | reference r =>
      cases hx
      simp [kept_reference hbinding]
  | guid id =>
      cases hx
      have hnull : Value.guid x ≠ .null := nofun
      have hreference : ∀ r, Value.guid x ≠ .reference r := nofun
      rw [kept_bare hbinding hnull hreference]
      by_cases hnil : record.id.isNil = true
      · rw [if_pos hnil]
        constructor
        · intro h
          cases h
        · rintro (⟨r, hr⟩ | ⟨rfl, hsome⟩)
          · cases hr
          · rw [hnil] at hsome
            cases hsome
      · rw [if_neg hnil]
        constructor
        · intro h
          have hid : record.id = x := Option.some.inj h
          exact .inr ⟨hid, by simpa [← hid] using hnil⟩
        · rintro (⟨r, hr⟩ | ⟨hid, -⟩)
          · cases hr
          · exact congrArg some hid
  | _ => cases hx

/-- What an entity read from a record writes for a link: the lookup that its member reads as, unless
fresh entities have a list of fields to write back that leaves the link out. -/
theorem get?_of_written (hs : catalog.schema? type = some s) (hf : f ∈ s.fields)
    (hbinding : f.binding = .link slot linked) (hwritable : f.readOnly = false)
    (hx : (record.get? f.wire).bind Value.asIdentity? = some x)
    (hread : Entity.ofRecord catalog .empty type record = .ok e)
    (hwrite : e.toRecord catalog .empty type = .ok record') {lookup : Option Reference}
    (hlookup : Entity.linkScalar (e.link? slot) = (lookup.map Scalar.reference).getD .null) :
    record'.get? f.wire
      = if (catalog.fresh type).header.isMarked f.wire f.member then lookup.map .reference
        else none := by
  have hb := Catalog.built_of_schema? hs
  have hsent := sent_of_toRecord hs hwrite
  have hsome : (record.get? f.wire).isSome = true := by
    obtain ⟨own, hown, -⟩ := Option.bind_eq_some_iff.mp hx
    rw [hown]
    rfl
  have hheader := header_of_ofRecord hs (Record.isBlank_of_get? hsome) hread
  have hbasis : (basis s e.header).get? f.wire = none := by
    rw [hheader]
    exact basis_get?_of_identity hx
  have hgoes : isWritable e.header f = (catalog.fresh type).header.isMarked f.wire f.member := by
    rw [hheader, isWritable, hwritable]
    rfl
  split
  next hmarked => exact hsent.get?_link hb hf hbinding (hgoes.trans hmarked) hbasis hlookup
  next hmarked =>
    rw [hsent.get?_of_not_sends hb hf fun hsends => hmarked (hgoes.symm.trans hsends.1), hbasis]

/--
**A link is written back as the lookup that its member was read from.**

A member that several fields share was read from the value of the last one that the record has an
attribute for, and `kept` tells what is left of it.  The identity of a field with a member of its
own comes back exactly when its attribute was a lookup, or when it is the record's own identity.  A
list of fields to write back that fresh entities of the type have must not leave the field out.
-/
theorem written_lookup (hs : catalog.schema? type = some s)
    (hf : f ∈ s.fields) (hbinding : f.binding = .link slot linked) (hwritable : f.readOnly = false)
    (hx : (record.get? f.wire).bind Value.asIdentity? = some x)
    (hread : Entity.ofRecord catalog .empty type record = .ok e)
    (hwrite : e.toRecord catalog .empty type = .ok record') :
    (∃ before g after raw lookup, Decides record s.fields f before g after ∧
      record.get? g.wire = some raw ∧
      lookup = kept catalog type record (met record before + 1) g raw ∧
      record'.get? f.wire
        = (if (catalog.fresh type).header.isMarked f.wire f.member then lookup.map .reference
          else none) ∧
      (PointsAt record' f.wire x ↔ (catalog.fresh type).header.isMarked f.wire f.member = true ∧
        lookup.map Reference.id = some x)) ∧
    ((∀ g ∈ s.fields, g.binding.place = f.binding.place → g = f) →
      (PointsAt record' f.wire x ↔ (catalog.fresh type).header.isMarked f.wire f.member = true ∧
        ((∃ r, record.get? f.wire = some (.reference r)) ∨ record.id = x ∧ x.isNil = false))) := by
  obtain ⟨own, hown, hid⟩ := Option.bind_eq_some_iff.mp hx
  have hsome : (record.get? f.wire).isSome = true := by rw [hown]; rfl
  obtain ⟨before, g, after, hdecides⟩ := exists_decides ⟨f, hf, rfl, hsome⟩
  obtain ⟨raw, hraw⟩ := Option.isSome_iff_exists.mp hdecides.present
  have hget := get?_of_written hs hf hbinding hwritable hx hread hwrite
    (linkScalar_of_ofRecord hs hbinding hdecides hraw hread)
  refine ⟨⟨before, g, after, raw, _, hdecides, hraw, rfl, hget, pointsAt_iff hget⟩, ?_⟩
  intro halone
  obtain rfl := hdecides.eq_of_own halone
  cases hraw.symm.trans hown
  rw [pointsAt_iff hget, kept_id_iff hbinding hid, hown]
  simp

theorem written_lookup_billed :
    ∃ e record', clients.schema? "Account" = some clientSchema ∧
      billingContact ∈ clientSchema.fields ∧
      (billed.get? billingContact.wire).bind Value.asIdentity? = some ann.id ∧
      Entity.ofRecord clients .empty "Account" billed = .ok e ∧
      e.toRecord clients .empty "Account" = .ok record' ∧
      PointsAt record' billingContact.wire ann.id := by
  have hs : clients.schema? "Account" = some clientSchema := rfl
  have hfields : clientSchema.fields = [primaryContact, billingContact] := rfl
  have hf : billingContact ∈ clientSchema.fields := by simp [hfields]
  have hx : (billed.get? billingContact.wire).bind Value.asIdentity? = some ann.id := rfl
  have hread : ∃ e, Entity.ofRecord clients .empty "Account" billed = .ok e := ⟨_, rfl⟩
  obtain ⟨e, hread⟩ := hread
  have hwrite : ∃ record', e.toRecord clients .empty "Account" = .ok record' := by
    cases hread
    exact ⟨_, rfl⟩
  obtain ⟨record', hwrite⟩ := hwrite
  obtain ⟨-, hiff⟩ := written_lookup hs hf rfl rfl hx hread hwrite
  have hown : ∀ g ∈ clientSchema.fields, g.binding.place = billingContact.binding.place →
      g = billingContact := by
    intro g hg hplace
    rw [hfields] at hg
    rcases List.mem_cons.mp hg with rfl | hg
    · exact absurd hplace (by decide)
    · exact List.mem_singleton.mp hg
  exact ⟨e, record', hs, hf, hx, hread, hwrite, (hiff hown).mpr ⟨rfl, .inl ⟨ann, rfl⟩⟩⟩

/-- An account whose primary contact is a bare identity. -/
def unnamed : Record :=
  ({ entity := "account", id := billed.id } : Record).set "primarycontactid" (.guid ann.id)

/-- The account is written back with a lookup to a contact of its own identity. -/
theorem bare_identity_lost :
    ∃ e record', clients.schema? "Account" = some clientSchema ∧
      primaryContact ∈ clientSchema.fields ∧ primaryContact.readOnly = false ∧
      (unnamed.get? primaryContact.wire).bind Value.asIdentity? = some ann.id ∧
      Entity.ofRecord clients .empty "Account" unnamed = .ok e ∧
      e.toRecord clients .empty "Account" = .ok record' ∧
      record'.get? primaryContact.wire = some (.reference ⟨"contact", unnamed.id⟩) ∧
      ¬PointsAt record' primaryContact.wire ann.id := by
  have hfields : clientSchema.fields = [primaryContact, billingContact] := rfl
  have hwritten : ∃ e record', Entity.ofRecord clients .empty "Account" unnamed = .ok e ∧
      e.toRecord clients .empty "Account" = .ok record' ∧
      record'.get? primaryContact.wire = some (.reference ⟨"contact", unnamed.id⟩) :=
    ⟨_, _, rfl, rfl, rfl⟩
  obtain ⟨e, record', hread, hwrite, hget⟩ := hwritten
  refine ⟨e, record', rfl, by simp [hfields], rfl, rfl, hread, hwrite, hget, ?_⟩
  rintro ⟨r, hr, hid⟩
  cases hget.symm.trans hr
  exact absurd hid (by decide)

end Mapping

end TypedRecords
