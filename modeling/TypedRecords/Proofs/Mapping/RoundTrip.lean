/-
Writing an entity back and reading it again.

Reading undoes writing, field by field.  A field that was sent left its member's scalar under its
own name, perhaps as an option code; the step that reads it puts the member back, and a link comes
back with the lookup it was sent as, whatever record it is then filled from.  A field that was not
sent left no attribute, and its step does nothing.  So once a member reads as it did in the written
entity, every later step keeps it so: a step on another place does not touch it, and a step on the
same place has the same scalar to put back.

A null member is not sent, and then it reads as in the type's fresh entity.  So the whole entity comes
back exactly when the fresh one has nothing to put where nothing was sent.
-/
import TypedRecords.Proofs.Mapping.Reading
import TypedRecords.Proofs.Mapping.WriteBack
import TypedRecords.Proofs.Record
import TypedRecords.Proofs.Scalar.Member

namespace TypedRecords

namespace Mapping

variable {nested : Reader} {vacant : Vacancy} {s : Schema} {record : Record} {place : Nat}
  {f : Field} {e c c' : Entity}

/-- What went out of a field comes in unchanged. -/
theorem incoming_outgoing {value out : Scalar} (h : outgoing .empty f value = .ok out) :
    incoming .empty f out.toValue = .ok out := by
  rw [outgoing_empty] at h
  rw [incoming_empty, Scalar.ofValue_toValue]
  exact Scalar.sent_idem h

/-! ### Links -/

/-- The content of a link that a lookup leads to knows the lookup. -/
theorem lookup_of_content {r : Reference} {source : Option Linked}
    (h : content s record place f (.reference r) = .ok source) :
    ∃ l, source = some l ∧ l.lookup = some r := by
  unfold content at h
  by_cases heager : f.eager = true
  · rw [if_pos heager] at h
    cases h
    exact ⟨_, rfl, rfl⟩
  · rw [if_neg heager] at h
    simp only [joined] at h
    rw [if_neg (by simp [Scalar.isNull])] at h
    cases hlink : s.findLink? f.wire ((lookup? (.reference r)).map (·.entity)) with
    | none =>
        rw [hlink] at h
        cases h
    | some link =>
        rw [hlink] at h
        cases h
        exact ⟨_, rfl, rfl⟩

/-- A linked entity reads as the lookup it came through. -/
theorem linkScalar_settle {l : Linked} {r : Reference} (h : l.lookup = some r) (child : Entity) :
    Entity.linkScalar (some (settle l child)) = .reference r := by
  have hlookup : (settle l child).header.lookup = some r := h
  simp only [Entity.linkScalar, hlookup]

/-- A link that is not null reads as a lookup. -/
theorem reference_of_linkScalar {linked : Option Entity}
    (h : Entity.linkScalar linked ≠ .null) : ∃ r, Entity.linkScalar linked = .reference r := by
  cases linked with
  | none => exact absurd rfl h
  | some l =>
      unfold Entity.linkScalar at h ⊢
      cases hlookup : l.header.lookup with
      | some r => exact ⟨r, by simp only [hlookup]⟩
      | none =>
          simp only [hlookup] at h ⊢
          by_cases hnil : l.header.id.isNil = true
          · rw [if_pos hnil] at h
            exact absurd rfl h
          · rw [if_neg hnil]
            exact ⟨_, rfl⟩

/-- A field that holds a link sends it as its lookup. -/
theorem outgoing_link {slot : String} {linked : TypeName} {out : Scalar}
    (hbinding : f.binding = .link slot linked) (hnull : e.read f ≠ .null)
    (hout : outgoing .empty f (e.read f) = .ok out) :
    ∃ r, e.read f = .reference r ∧ out = .reference r := by
  have hread : e.read f = Entity.linkScalar (e.link? slot) := by
    unfold Entity.read
    rw [hbinding]
  rw [hread] at hnull
  obtain ⟨r, hr⟩ := reference_of_linkScalar hnull
  rw [outgoing_empty, hread, hr] at hout
  exact ⟨r, hread.trans hr, Scalar.sent_reference hout⟩

/-! ### One field -/

/-- **Reading a field that was sent puts its member back.** -/
theorem Filled.restores (hfilled : Filled nested vacant s .empty record place f c c') {out : Scalar}
    (hnull : e.read f ≠ .null) (hout : outgoing .empty f (e.read f) = .ok out)
    (hget : record.get? f.wire = some out.toValue) : c'.read f = e.read f := by
  have hin := incoming_outgoing hout
  cases hfilled with
  | untouched habsent =>
      rw [habsent] at hget
      cases hget
  | scalar hbinding hraw hvalue hwrite =>
      rw [hraw] at hget
      cases hget
      rw [hin] at hvalue
      cases hvalue
      rw [outgoing_empty] at hout
      unfold Entity.read at hnull hout ⊢
      rw [hbinding] at hnull hout ⊢
      obtain ⟨held, hheld, rfl⟩ := map_eq_ok.mp hwrite
      rw [MemberType.ofScalar_sent hnull hout] at hheld
      cases hheld
      show MemberType.toScalar _ (Members.get _ _) = _
      rw [Members.get_set_self]
      rfl
  | cleared hbinding hraw hvalue hcontent =>
      obtain ⟨r, -, rfl⟩ := outgoing_link hbinding hnull hout
      rw [hraw] at hget
      cases hget
      rw [hin] at hvalue
      cases hvalue
      obtain ⟨l, hl, -⟩ := lookup_of_content hcontent
      cases hl
  | linked hbinding hraw hvalue hcontent hchild =>
      obtain ⟨r, hread, rfl⟩ := outgoing_link hbinding hnull hout
      rw [hraw] at hget
      cases hget
      rw [hin] at hvalue
      cases hvalue
      obtain ⟨l, hl, hlookup⟩ := lookup_of_content hcontent
      cases hl
      rw [hread]
      unfold Entity.read
      rw [hbinding]
      show Entity.linkScalar ((c.setLink _ _).link? _) = _
      rw [Entity.link?_setLink_self, linkScalar_settle hlookup]

/-! ### All fields -/

/-- The names of the lifecycle are two, and no field's. -/
structure Apart (s : Schema) : Prop where
  ne : s.stateField ≠ s.statusField
  fields : ∀ f ∈ s.fields, f.wire ≠ s.stateField ∧ f.wire ≠ s.statusField

section

variable (hb : s.Built) (hapart : Apart s) (hsent : Sent s .empty e record)

include hb hapart hsent

/-- A step leaves a member as it is, or puts back what was sent for it. -/
theorem Filled.leaves_or_restores {g : Field} (hg : g ∈ s.fields)
    (hfilled : Filled nested vacant s .empty record place g c c') :
    c'.read f = c.read f ∨ e.read f ≠ .null ∧ c'.read f = e.read f := by
  by_cases hplace : f.binding.place = g.binding.place
  · by_cases hsends : Sends e g
    · obtain ⟨out, hout, hget⟩ := hsent.members g hg hsends
      rw [Entity.read_of_place_eq hplace, Entity.read_of_place_eq hplace e]
      exact .inr ⟨hsends.2, hfilled.restores hsends.2 hout hget⟩
    · rw [hfilled.eq_of_absent (hsent.absent hb hg (hapart.fields g hg) hsends)]
      exact .inl rfl
  · exact .inl (hfilled.read_of_ne hplace)

/-- Reading the fields of a written record puts a writable member back that was not null, and leaves
one that was as it finds it. -/
theorem fillAll_restores {start e' : Entity}
    (hfill : fillAll nested vacant s .empty record 1 s.fields start = .ok e')
    (hf : f ∈ s.fields) (hwritable : isWritable e.header f = true) :
    e'.read f = if e.read f = .null then start.read f else e.read f := by
  split
  next hnull =>
    refine fillAll_keeps (P := fun c => c.read f = start.read f) ?_ rfl hfill
    intro g hg _ _ _ hc hfilled
    rcases hfilled.leaves_or_restores hb hapart hsent (f := f) hg with hleft | ⟨hsome, -⟩
    · exact hleft.trans hc
    · exact absurd hnull hsome
  next hnull =>
    obtain ⟨before, after, hsplit⟩ := List.append_of_mem hf
    rw [hsplit] at hfill
    obtain ⟨c, c', next, -, hfilled, hafter⟩ := fillAll_split hfill
    obtain ⟨out, hout, hget⟩ := hsent.members f hf ⟨hwritable, hnull⟩
    refine fillAll_keeps (P := fun c => c.read f = e.read f) ?_
      (hfilled.restores hnull hout hget) hafter
    intro g hg _ _ _ hc hfilled
    have hg : g ∈ s.fields := by simp [hsplit, hg]
    rcases hfilled.leaves_or_restores hb hapart hsent (f := f) hg with hleft | ⟨-, hback⟩
    · exact hleft.trans hc
    · exact hback

end

/-! ### The header -/

/-- The header of a written record has the identity and the lifecycle of the entity. -/
theorem header_of_sent (fresh : Header) (hapart : Apart s) (hsent : Sent s .empty e record) :
    (header fresh s.stateField s.statusField record).id = e.header.id ∧
      (header fresh s.stateField s.statusField record).state = e.header.state ∧
      (header fresh s.stateField s.statusField record).status = e.header.status := by
  have hstate := hsent.state hapart.ne fun f hf => (hapart.fields f hf).1
  have hstatus := hsent.status hapart.ne fun f hf => (hapart.fields f hf).2
  unfold header
  refine ⟨hsent.id, ?_, ?_⟩
  · rw [hstate]
    by_cases hunknown : e.header.state = .unknown
    · rw [if_pos hunknown, hunknown]
      rfl
    · rw [if_neg hunknown]
      show (Lifecycle.ofCode? e.header.state.code).getD .unknown = e.header.state
      rw [Lifecycle.ofCode?_code]
      rfl
  · rw [hstatus]
    cases e.header.status with
    | none => rfl
    | some status => rfl

/-! ### Blank records -/

/-- A blank record tells neither an identity nor a lifecycle. -/
theorem header_of_isBlank (fresh : Header) (hblank : record.isBlank = true)
    (stateField statusField : String) :
    (header fresh stateField statusField record).id = .nil ∧
      (header fresh stateField statusField record).state = .unknown ∧
      (header fresh stateField statusField record).status = none := by
  have hid : record.id = .nil := by
    rw [Record.isBlank, Bool.and_eq_true] at hblank
    exact Identity.eq_nil_of_isNil hblank.1
  unfold header
  rw [Record.get?_of_isBlank hblank, Record.get?_of_isBlank hblank]
  exact ⟨hid, rfl, rfl⟩

/-! ### Whole entities -/

/-- What an entity read back shares with the one that was written. -/
structure Restored (s : Schema) (e e' : Entity) : Prop where
  id : e'.header.id = e.header.id
  state : e'.header.state = e.header.state
  status : e'.header.status = e.header.status
  /-- Every writable member reads the same, null or not. -/
  member : ∀ f ∈ s.fields, isWritable e.header f = true → e'.read f = e.read f

/-- What becomes of an entity that is written to a record and read back, with what the fresh entity
adds. -/
structure Recovered (s : Schema) (fresh : Entity) (record : Record) (e e' : Entity) : Prop where
  /-- A record that is not blank has the identity and the lifecycle. -/
  header : record.isBlank = false → e'.header.id = e.header.id ∧
    e'.header.state = e.header.state ∧ e'.header.status = e.header.status
  /-- A blank one is written for an entity that has neither, and reads as the fresh one. -/
  blank : record.isBlank = true → e.header.id = .nil ∧ e.header.state = .unknown ∧
    e.header.status = none ∧ e' = fresh
  /-- A writable member that is not null comes back, and one that is null reads as the fresh one. -/
  member : ∀ f ∈ s.fields, isWritable e.header f = true →
    e'.read f = if e.read f = .null then fresh.read f else e.read f

/-- A fresh entity has nothing where an entity has nothing to send: no member where the entity's is
null, and neither identity nor lifecycle if the entity's record is blank. -/
structure AddsNothing (s : Schema) (fresh : Entity) (record : Record) (e : Entity) : Prop where
  id : record.isBlank = true → fresh.header.id = .nil
  state : record.isBlank = true → fresh.header.state = .unknown
  status : record.isBlank = true → fresh.header.status = none
  member : ∀ f ∈ s.fields, isWritable e.header f = true → e.read f = .null → fresh.read f = .null

/-- A fresh entity without an identity and a lifecycle, and null in every member that can be null and
is ever written back. -/
structure Bare (s : Schema) (fresh : Entity) : Prop where
  id : fresh.header.id = .nil
  state : fresh.header.state = .unknown
  status : fresh.header.status = none
  member : ∀ f ∈ s.fields, f.readOnly = false →
    (∃ e : Entity, e.read f = .null) → fresh.read f = .null

/-- The empty entity reads null wherever any entity does. -/
theorem read_empty (hnull : e.read f = .null) : ({} : Entity).read f = .null := by
  unfold Entity.read at hnull ⊢
  cases hbinding : f.binding with
  | scalar slot =>
      rw [hbinding] at hnull
      exact MemberType.blank_null hnull
  | link slot linked => rfl

/-- The empty entity is bare, whatever the schema. -/
theorem bare_empty (s : Schema) : Bare s {} where
  id := rfl
  state := rfl
  status := rfl
  member := fun _ _ _ ⟨_, hnull⟩ => read_empty hnull

/-- A bare entity adds nothing to any. -/
theorem Bare.addsNothing {fresh : Entity} (h : Bare s fresh) (record : Record) (e : Entity) :
    AddsNothing s fresh record e where
  id _ := h.id
  state _ := h.state
  status _ := h.status
  member f hf hwritable hnull := by
    have hwritten : f.readOnly = false := by simpa using (Bool.and_eq_true_iff.mp hwritable).1
    exact h.member f hf hwritten ⟨e, hnull⟩

/-- An entity comes back whole exactly when the fresh one adds nothing to it. -/
theorem Recovered.restored_iff {fresh e' : Entity} (h : Recovered s fresh record e e') :
    Restored s e e' ↔ AddsNothing s fresh record e := by
  constructor
  · intro hrestored
    refine ⟨fun hblank => ?_, fun hblank => ?_, fun hblank => ?_, fun f hf hwritable hnull => ?_⟩
    · obtain ⟨hid, -, -, rfl⟩ := h.blank hblank
      exact hrestored.id.trans hid
    · obtain ⟨-, hstate, -, rfl⟩ := h.blank hblank
      exact hrestored.state.trans hstate
    · obtain ⟨-, -, hstatus, rfl⟩ := h.blank hblank
      exact hrestored.status.trans hstatus
    · have hread := h.member f hf hwritable
      rw [if_pos hnull, hrestored.member f hf hwritable, hnull] at hread
      exact hread.symm
  · intro hadds
    have hmember : ∀ f ∈ s.fields, isWritable e.header f = true → e'.read f = e.read f := by
      intro f hf hwritable
      rw [h.member f hf hwritable]
      split
      next hnull => rw [hadds.member f hf hwritable hnull, hnull]
      next => rfl
    cases hblank : record.isBlank with
    | true =>
        obtain ⟨hid, hstate, hstatus, rfl⟩ := h.blank hblank
        exact ⟨(hadds.id hblank).trans hid.symm, (hadds.state hblank).trans hstate.symm,
          (hadds.status hblank).trans hstatus.symm, hmember⟩
    | false =>
        obtain ⟨hid, hstate, hstatus⟩ := h.header hblank
        exact ⟨hid, hstate, hstatus, hmember⟩

/-- What is written and read back falls back on the type's fresh entity where nothing was sent. -/
theorem recovered_of_ofRecord {catalog : Catalog} {type : TypeName} {e' : Entity}
    (hs : catalog.schema? type = some s) (hapart : Apart s)
    (hwrite : e.toRecord catalog .empty type = .ok record)
    (hread : Entity.ofRecord catalog .empty type record = .ok e') :
    Recovered s (catalog.fresh type) record e e' := by
  have hb := Catalog.built_of_schema? hs
  have hsent := sent_of_toRecord hs hwrite
  obtain ⟨hid, hstate, hstatus⟩ := header_of_sent (catalog.fresh type).header hapart hsent
  cases hblank : record.isBlank with
  | true =>
      rw [ofRecord_blank hblank] at hread
      cases hread
      obtain ⟨hid', hstate', hstatus'⟩ :=
        header_of_isBlank (catalog.fresh type).header hblank s.stateField s.statusField
      refine ⟨fun hsome => absurd (hblank.symm.trans hsome) nofun, fun _ => ⟨hid.symm.trans hid',
        hstate.symm.trans hstate', hstatus.symm.trans hstatus', rfl⟩, fun f hf hwritable => ?_⟩
      have hnull : e.read f = .null := by
        by_contra hne
        obtain ⟨out, -, hget⟩ := hsent.members f hf ⟨hwritable, hne⟩
        rw [Record.get?_of_isBlank hblank] at hget
        cases hget
      rw [if_pos hnull]
  | false =>
      rw [ofRecord_mapped hs hblank] at hread
      refine ⟨fun _ => ?_, fun hnone => absurd (hblank.symm.trans hnone) nofun,
        fun f hf hwritable => ?_⟩
      · rw [fillAll_header hread]
        exact ⟨hid, hstate, hstatus⟩
      · rw [fillAll_restores hb hapart hsent hread hf hwritable, read_started]

/-- How urgent an order is. -/
def urgency : ChoiceSet := ⟨"Urgency", [1, 2, 3], 1, by decide⟩

/-- A catalog of orders, with members of every make and both makes of links.  A fresh order has a
title, and a fresh contact some calls. -/
def orders : Catalog where
  describe
    | "Order" =>
        { names := ["salesorder"]
          declarations :=
            [.scalar ⟨"title", .plain .string⟩ "title" "name",
              .scalar ⟨"rank", .plain .int64⟩ "rank" "rankcode", .choice,
              .scalar ⟨"count", .optional .int32⟩ "count" "itemcount",
              .scalar ⟨"urgency", .coded urgency⟩ "urgency" "urgencycode",
              .scalar ⟨"fallback", .optionalCoded urgency⟩ "fallback" "fallbackcode",
              .scalar ⟨"origin", .plain .reference⟩ "origin" "originid",
              .scalar ⟨"number", .plain .string⟩ "number" "ordernumber", .readOnly,
              .link "customer" "Contact" "customer" "customerid" [],
              .link "owner" "User" "owner" "ownerid" [], .eager]
          fresh := { members := ({} : Members).set ⟨"title", .plain .string⟩ "Untitled" } }
    | "Contact" =>
        { names := ["contact"]
          declarations := [.scalar ⟨"calls", .optional .int32⟩ "calls" "callcount"]
          fresh := { members := ({} : Members).set ⟨"calls", .optional .int32⟩ (some 5) } }
    | "User" => { names := ["systemuser"] }
    | _ => {}

/-- The schema of orders. -/
def orderSchema : Schema :=
  .ofDeclarations orders.names (orders.names "Order") (orders.describe "Order").declarations

/-- An active order with a rank, an urgency and both links, but neither a count nor an origin. -/
def order : Entity where
  header := { id := ⟨7, by decide⟩, entity := "salesorder", state := .active, status := some 1 }
  members :=
    ((({} : Members).set ⟨"title", .plain .string⟩ "Bolts").set ⟨"rank", .plain .int64⟩ 4).set
      ⟨"urgency", .coded urgency⟩ ⟨3, by decide⟩
  links :=
    [("customer", { header := { id := ⟨8, by decide⟩, entity := "contact" } }),
      ("owner", { header := { lookup := some ⟨"systemuser", ⟨9, by decide⟩⟩ } })]

/-- A fresh order has no member that can be null but is not. -/
theorem bare_order : Bare orderSchema (orders.fresh "Order") where
  id := rfl
  state := rfl
  status := rfl
  member := by
    intro f hf hwritten hnull
    by_cases htitle : f.binding.place = .inl ⟨"title", .plain .string⟩
    · obtain ⟨e, hnull⟩ := hnull
      rw [Entity.read, Binding.place_eq_inl_iff.mp htitle] at hnull
      cases hnull
    · have hempty : ({} : Entity).read f = .null := (bare_empty _).member f hf hwritten hnull
      exact (Entity.read_set_of_ne htitle {} _).trans hempty

-- a contact whose calls are not known comes back with those of a fresh contact
example : ∃ record e',
    ({ header := { id := ⟨8, by decide⟩ } } : Entity).toRecord orders .empty "Contact" = .ok record ∧
    Entity.ofRecord orders .empty "Contact" record = .ok e' ∧
    e'.members.read ⟨"calls", .optional .int32⟩ = .int 5 := ⟨_, _, rfl, rfl, rfl⟩

end Mapping

end TypedRecords
